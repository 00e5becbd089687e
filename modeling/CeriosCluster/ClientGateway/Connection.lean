import CeriosCluster.ClientGateway.Atomicity
import CeriosCluster.ClientGateway.Line
import CeriosCluster.Lib.Part

/-!
# One connection as a part of the gateway

A program that only reads and changes one client acts on that connection alone. What the functions on the way to a
send do to the client, and what they add to its line, is worked out once here.
-/

namespace CeriosCluster.ClientGateway

open CeriosCluster.Lib CeriosCluster.MCPacket

def connection (i : ConnId) : Part Gateway Client where
  read g := g.objects[i]?
  write c g := { g with objects := g.objects.set i c }
  read_write g c c' h := by
    have hlt := (List.getElem?_eq_some_iff.mp h).1
    simp [hlt]
  write_read g c h := by
    obtain ⟨hlt, rfl⟩ := List.getElem?_eq_some_iff.mp h
    simp
  write_write g c c' := by simp

theorem connection_apart {i j : ConnId} (h : i ≠ j) : Part.Apart (connection i) (connection j) where
  read_left g c := by simp [connection, Ne.symm h]
  read_right g c := by simp [connection, h]
  write_comm g c c' := by
    simp only [connection]
    rw [List.set_comm _ _ (Ne.symm h)]

section Primitives

variable {α β : Type} {E : Env} {i : ConnId} {c : Client} {f : Client → Client} {F : Exn → Client → Prop}

theorem modify_eq_write {g : Gateway} (hc : g.objects[i]? = some c) : g.modify i f = (connection i).write (f c) g := by
  have hobjects : g.objects.modify i f = g.objects.set i (f c) := by
    refine List.ext_getElem? fun j => ?_
    obtain ⟨hlt, rfl⟩ := List.getElem?_eq_some_iff.mp hc
    rw [List.getElem?_modify, List.getElem?_set]
    by_cases hij : i = j
    · subst hij
      simp [hlt]
    · simp [hij]
  exact congrArg (fun objects => { g with objects := objects }) hobjects

theorem acts_client {Q : Client → Client → Prop} (h : c.freed = false → Q c c) :
    (connection i).Acts (client i) Q F c := by
  cases hfreed : c.freed with
  | true =>
    refine .of_undefined fun g hc => ?_
    unfold client
    rw [Exec.run_bind_ok (Exec.run_get g), show g.objects[i]? = some c from hc]
    simp [hfreed]
  | false =>
    exact .of_ok (fun g hc => run_client ⟨hc, hfreed⟩) (h hfreed)

theorem acts_modify {Q : Unit → Client → Prop} (h : c.freed = false → Q () (f c)) :
    (connection i).Acts (modifyClient i f) Q F c := by
  cases hfreed : c.freed with
  | true =>
    refine .of_undefined fun g hc => ?_
    unfold modifyClient client
    rw [Exec.run_bind, Exec.run_bind_ok (Exec.run_get g), show g.objects[i]? = some c from hc]
    simp [hfreed]
  | false =>
    refine .of_ok_write (fun g hc => ?_) (h hfreed)
    rw [run_modifyClient ⟨hc, hfreed⟩, modify_eq_write hc]

theorem acts_client_bind {m : Client → M α} {Q : α → Client → Prop}
    (h : c.freed = false → (connection i).Acts (m c) Q F c) :
    (connection i).Acts (client i >>= m) Q F c :=
  .bind (acts_client h)

theorem acts_modify_bind {m : Unit → M α} {Q : α → Client → Prop}
    (h : c.freed = false → (connection i).Acts (m ()) Q F (f c)) :
    (connection i).Acts (modifyClient i f >>= m) Q F c :=
  .bind (acts_modify h)

theorem acts_ite {p : Prop} [Decidable p] {m m' : M α} {Q : α → Client → Prop} (h : p → (connection i).Acts m Q F c)
    (h' : ¬ p → (connection i).Acts m' Q F c) : (connection i).Acts (if p then m else m') Q F c := by
  split
  · next hp => exact h hp
  · next hp => exact h' hp

end Primitives

/-! ## Sending -/

/-- The client after something has been said: more is in its log, and its cipher has gone on. -/
def Client.said (c : Client) (as : List Action) (context : Option CipherContext) (writes : Nat) : Client :=
  { c with encryptCipherContext := context, writesPending := writes, log := c.log ++ as }

def Client.Says (R : Line → List Action → Line → Prop) (c c' : Client) : Prop :=
  ∃ as context writes, c' = c.said as context writes ∧ (c.alive = true → R c.line as { c.line with context := context })

section Sends

variable {E : Env} {i : ConnId} {c c' c'' : Client} {p : Packet} {F : Exn → Client → Prop}

theorem wrote_logged {a : Action} {vector : SendVector} {bytes : Bytes} :
    (c.logged a).wrote vector bytes = c.said [a, .write vector bytes] c.encryptCipherContext (c.writesPending + 1) := by
  simp [Client.wrote, Client.logged, Client.said]

theorem acts_asyncWrite {vector : SendVector} {bytes : Bytes} {Q : Unit → Client → Prop}
    (h : Q () (c.wrote vector bytes)) :
    (connection i).Acts (asyncWrite i vector bytes) Q F c :=
  acts_modify_bind fun _ => acts_modify fun _ => h

theorem acts_encrypt {plaintext : Bytes} {Q : Option Bytes → Client → Prop}
    (h : ∀ context, c.encryptCipherContext = some context →
      match E.cipher.encryptUpdate context plaintext with
      | none => Q none c
      | some ciphertext => Q (some ciphertext.val)
          { c with encryptCipherContext := some { context with processed := context.processed ++ plaintext } }) :
    (connection i).Acts (encrypt E i plaintext) Q F c := by
  refine acts_client_bind fun _ => ?_
  cases hcontext : c.encryptCipherContext with
  | none => exact .undefined
  | some context =>
    refine acts_ite (fun _ => .undefined) fun _ => ?_
    have hupdate := h context hcontext
    split
    · next hfailed =>
      rw [hfailed] at hupdate
      exact .pure hupdate
    · next ciphertext hciphertext =>
      rw [hciphertext] at hupdate
      exact acts_modify_bind fun _ => .pure hupdate

/-- `sendData` carries the data, or does nothing for a client that is dead. -/
theorem acts_sendData (data : Bytes) :
    (connection i).Acts (sendData E i data) (fun _ c' => c.Says (Line.Carries E data) c') F c := by
  refine acts_client_bind fun _ => acts_modify_bind fun _ => acts_ite (fun hdead => .pure ?_) fun _ =>
    acts_ite (fun hencrypted => ?_) fun hclear => ?_
  · refine ⟨[.sendData data c.encrypted], c.encryptCipherContext, c.writesPending, rfl, fun halive => ?_⟩
    simp [halive] at hdead
  · refine .bind (acts_encrypt fun context hcontext => ?_)
    split
    · next hfailed =>
      refine acts_asyncWrite ⟨_, _, _, wrote_logged, fun _ => ?_⟩
      rw [hencrypted]
      exact .failed hencrypted hcontext hfailed
    · next ciphertext hciphertext =>
      refine acts_asyncWrite ⟨_, _, _, wrote_logged (c := { c with encryptCipherContext := _ }), fun _ => ?_⟩
      rw [hencrypted]
      exact .encrypted hencrypted hcontext hciphertext
  · have hclear : c.encrypted = false := by simpa using hclear
    refine acts_asyncWrite ⟨_, _, _, wrote_logged, fun _ => ?_⟩
    rw [hclear]
    exact .clear hclear

theorem Client.Says.of_logged {data : Bytes} (hframe : frame (p.serialized getSide) = some data)
    (h : (c.logged (.sendPacket p)).Says (Line.Carries E data) c') : c.Says (Line.Sends E p) c' := by
  obtain ⟨as, context, writes, rfl, hspeaks⟩ := h
  refine ⟨.sendPacket p :: as, context, writes, by simp [Client.said, Client.logged], fun halive => ?_⟩
  exact .framed hframe (hspeaks halive)

/-- Without compression `sendPacket` sends the packet, or throws if it is too large for a frame. -/
theorem acts_sendPacket (hthreshold : c.compressionThreshold = noCompression) :
    (connection i).Acts (sendPacket E i p) (fun _ c' => c.Says (Line.Sends E p) c')
      (fun _ c' => c' = c.logged (.sendPacket p) ∧ frame (p.serialized getSide) = none) c := by
  refine acts_client_bind fun _ => acts_modify_bind fun _ => ?_
  rw [hthreshold]
  refine .bind ?_
  cases hframe : frame (p.serialized getSide) with
  | some data =>
    refine .of_ok (fun _ _ => packetData_of_frame hframe) ?_
    exact (acts_sendData data).mono (fun _ _ h => h.of_logged hframe) fun _ _ h => h
  | none => exact .of_threw (fun _ _ => by rw [packetData_noCompression, hframe]) ⟨rfl, rfl⟩

theorem acts_sendPacket_fits (hthreshold : c.compressionThreshold = noCompression)
    (hfits : FitsFrame (p.serialized getSide).length) :
    (connection i).Acts (sendPacket E i p) (fun _ c' => c.Says (Line.Sends E p) c') F c := by
  refine (acts_sendPacket hthreshold).mono (fun _ _ h => h) fun _ _ hlarge => ?_
  rw [frame_fits hfits] at hlarge
  exact absurd hlarge.2 (by simp)

theorem fits_of_newPacket {side : Side} {state : ClientState} {id : Word} {a : Ambient}
    (h : newPacket side state id a = some p) :
    FitsFrame (p.serialized getSide).length := by
  obtain ⟨packetClass, -, rfl⟩ := Option.map_eq_some_iff.mp h
  exact fresh_fits packetClass _ _ _

theorem acts_sendNewPacket {side : Side} {state : ClientState} {id : Word} {a : Ambient}
    (hthreshold : c.compressionThreshold = noCompression) :
    (connection i).Acts (sendNewPacket E i (newPacket side state id a))
      (fun _ c' => ∃ p, newPacket side state id a = some p ∧ c.Says (Line.Sends E p) c') F c := by
  cases hp : newPacket side state id a with
  | none => exact .undefined
  | some p =>
    exact (acts_sendPacket_fits hthreshold (fits_of_newPacket hp)).mono (fun _ _ h => ⟨p, rfl, h⟩) fun _ _ h => h

theorem acts_sendJoin {a : Ambient} {ids : List Word} (hthreshold : c.compressionThreshold = noCompression) :
    (connection i).Acts (sendJoin E a i ids) (fun _ c' => c.Says (Line.SendsFresh E a ids) c') F c := by
  induction ids generalizing c with
  | nil => exact .pure ⟨[], c.encryptCipherContext, c.writesPending, by simp [Client.said], fun _ => .nil _⟩
  | cons id ids ih =>
    refine .bind_of (acts_sendNewPacket hthreshold) fun _ c₁ hfirst => ?_
    obtain ⟨p, hp, as, context, writes, rfl, hsends⟩ := hfirst
    refine (ih (c := c.said as context writes) hthreshold).mono (fun _ c₂ hrest => ?_) fun _ _ h => h
    obtain ⟨as', context', writes', rfl, hsends'⟩ := hrest
    exact ⟨as ++ as', context', writes', by simp [Client.said], fun halive => .cons hp (hsends halive) (hsends' halive)⟩

end Sends

end CeriosCluster.ClientGateway
