import CeriosCluster.ClientGateway.CustodyEffects
import CeriosCluster.ClientGateway.SessionKey
import CeriosCluster.Lib.Quoted

/-!
# The ids in the queries

`addClient` puts the id of its client into the texts of two queries as it is. The id comes from a digest, or from the
session server by way of `formatUUID`, which leaves what is no player id as it was; so the texts are what they are meant
to be if the session server's ids are hexadecimal.
-/

namespace CeriosCluster.ClientGateway

open CeriosCluster.Lib CeriosCluster.MCPacket

/-! ## The texts -/

/-- The first query of `ClientServer::addClient`. -/
def ClientServer.selectText (clientId : Bytes) : Bytes :=
  ascii "SELECT * FROM `players` WHERE `uuid`='" ++ clientId ++ ascii "';"

/-- The second, for a player who is not in the table. -/
def ClientServer.insertText (clientId : Bytes) : Bytes :=
  ascii "INSERT INTO `players` (uuid) VALUES ('" ++ clientId ++ ascii "');"

/-- What a backslash and this character stand for in a string of the database. -/
def unescape (b : Byte) : Byte :=
  if b = 0x30 then 0x00
  else if b = 0x62 then 0x08
  else if b = 0x6e then 0x0a
  else if b = 0x72 then 0x0d
  else if b = 0x74 then 0x09
  else if b = 0x5a then 0x1a
  else b

/-- The tokens that the database makes of a text. -/
def lexSql : Bytes → Option (List (Quoted.Token Byte)) := Quoted.lex 0x27 0x5c unescape

/-- A statement with one string literal in it. -/
def statement (before text after : Bytes) : List (Quoted.Token Byte) :=
  before.map .code ++ .literal text :: after.map .code

/-- The id is hexadecimal, and each text the statement it is meant to be, with the id for its only string literal. -/
structure Spliced (clientId : Bytes) : Prop where
  hexadecimal : Hexadecimal clientId
  select : lexSql (ClientServer.selectText clientId) =
    some (statement (ascii "SELECT * FROM `players` WHERE `uuid`=") clientId (ascii ";"))
  insert : lexSql (ClientServer.insertText clientId) =
    some (statement (ascii "INSERT INTO `players` (uuid) VALUES (") clientId (ascii ");"))

theorem Hexadecimal.spliced {clientId : Bytes} (h : Hexadecimal clientId) : Spliced clientId := by
  have hquote : (0x27 : Byte) ∉ clientId := fun hmem => absurd (h _ hmem) (by decide)
  have hescape : (0x5c : Byte) ∉ clientId := fun hmem => absurd (h _ hmem) (by decide)
  have hlex {before after : Bytes} (hbefore : (0x27 : Byte) ∉ before) (hafter : after ≠ [])
    (hcode : (0x27 : Byte) ∉ after) :
      lexSql (before ++ 0x27 :: (clientId ++ 0x27 :: after)) = some (statement before clientId after) :=
    Quoted.lex_literal hbefore hquote hescape (by decide) hafter hcode
  have hselect : ClientServer.selectText clientId =
      ascii "SELECT * FROM `players` WHERE `uuid`=" ++ 0x27 :: (clientId ++ 0x27 :: ascii ";") := by
    have hopen : ascii "SELECT * FROM `players` WHERE `uuid`='" = ascii "SELECT * FROM `players` WHERE `uuid`=" ++
      [0x27] := by
      decide +kernel
    have hclose : ascii "';" = 0x27 :: ascii ";" := rfl
    unfold ClientServer.selectText
    rw [hopen, hclose]
    simp only [List.append_assoc, List.cons_append, List.nil_append]
  have hinsert : ClientServer.insertText clientId =
      ascii "INSERT INTO `players` (uuid) VALUES (" ++ 0x27 :: (clientId ++ 0x27 :: ascii ");") := by
    have hopen : ascii "INSERT INTO `players` (uuid) VALUES ('" = ascii "INSERT INTO `players` (uuid) VALUES (" ++
      [0x27] := by
      decide +kernel
    have hclose : ascii "');" = 0x27 :: ascii ");" := rfl
    unfold ClientServer.insertText
    rw [hopen, hclose]
    simp only [List.append_assoc, List.cons_append, List.nil_append]
  refine ⟨h, ?_, ?_⟩
  · rw [hselect]
    exact hlex (by decide +kernel) (by decide) (by decide)
  · rw [hinsert]
    exact hlex (by decide +kernel) (by decide) (by decide)

/-! ## The ids of the clients -/

namespace Custody

def HexIds (o : Custody) : Prop := ∀ (k : ConnId) (c : Holder), o.holders[k]? = some c → Hexadecimal c.userid

/-- An operation gives a client no other id than a hexadecimal one. -/
def RenamesHex (_ : Custody) : CustodyOp → Prop
  | .rename _ userid => Hexadecimal userid
  | _ => True

section HexIds

variable {o : Custody} {i : ConnId} {f : Holder → Holder}

theorem HexIds.modify (h : HexIds o) (hf : ∀ c, Hexadecimal c.userid → Hexadecimal (f c).userid) :
    HexIds (o.modify i f) := by
  intro k c hc
  obtain ⟨d, hd, ⟨-, rfl⟩ | ⟨-, rfl⟩⟩ := modify_inv hc
  · exact hf d (h k d hd)
  · exact h k c hd

theorem HexIds.apply (h : HexIds o) (op : CustodyOp) (hop : RenamesHex o op) : HexIds (o.apply op) := by
  cases op with
  | construct socket =>
    intro k c hc
    rcases construct_inv hc with hc | ⟨-, rfl⟩
    · exact h k c hc
    · have hnobody : Hexadecimal (ascii "00000000-0000-0000-0000-000000000000") := by decide +kernel
      exact hnobody
  | insert i =>
    intro k c hc
    obtain ⟨d, hd, heq⟩ := insert_inv hc
    rw [heq]
    exact h k d hd
  | login i =>
    intro k c hc
    obtain ⟨d, hd, ⟨-, heq⟩ | ⟨-, heq⟩, -⟩ := login_inv hc
    all_goals
      rw [heq]
      exact h k d hd
  | disconnect i =>
    intro k c hc
    obtain ⟨d, hd, ⟨heq, -⟩ | ⟨-, heq⟩⟩ := disconnect_inv hc
    all_goals
      rw [heq]
      exact h k d hd
  | rename i userid => exact h.modify fun _ _ => hop
  | _ => exact h.modify fun _ hc => hc

end HexIds

end Custody

/-- The id in a reply of the session server is hexadecimal. -/
def ReplyHexadecimal (E : Env) (g : Gateway) (e : World × Event) : Prop :=
  ∀ i k error more r length data id name, e.2 = .onHasJoinedPostComplete i k error more → stageOf g i k = some r →
    r.stage = .readingBody length data → replyOf E (data ++ more) length = some (id, name) → Hexadecimal id

section Events

variable {E : Env} {w : World} {e : Event} {g g' : Gateway} {i : ConnId} {userid name : Bytes} {ops : List CustodyOp}

theorem hexadecimal_loopbackId : Hexadecimal (loopbackId E name) :=
  hexadecimal_formatUUID.mpr fun b hb => hexadecimal_make_hex_string _ b (List.mem_of_mem_take hb)

theorem Joins.hexadecimal (h : Joins E w g i userid name e) (hreply : ReplyHexadecimal E g (w, e)) :
    Hexadecimal userid := by
  cases h with
  | loopback hc halive hp hstart hid =>
    rw [hid]
    exact hexadecimal_loopbackId
  | reply hr hstage hcomplete hreplied hid =>
    rw [hid]
    exact hexadecimal_formatUUID.mpr (hreply _ _ _ _ _ _ _ _ _ rfl hr hstage hreplied)

theorem renamesHex_of_asks (hreply : ReplyHexadecimal E g (w, e)) (hasks : Asks E w g e ops) :
    Custody.Along Custody.RenamesHex g.custody ops := by
  cases hasks with
  | logsIn hjoins hfits => exact ⟨hjoins.hexadecimal hreply, trivial, trivial⟩
  | unframed hjoins hfits hops =>
    rcases hops with rfl | ⟨rfl, -⟩
    · exact ⟨hjoins.hexadecimal hreply, trivial, trivial⟩
    · exact ⟨hjoins.hexadecimal hreply, trivial, trivial, trivial⟩
  | fails hfails hops =>
    rcases hops with rfl | rfl
    · exact ⟨trivial, trivial⟩
    · exact ⟨trivial, trivial, trivial⟩
  | other hjoins hfails hminor =>
    cases hminor with
    | nothing => trivial
    | rearm hc halive => exact ⟨trivial, trivial, trivial⟩
    | _ => exact ⟨trivial, trivial⟩

/-- What a run whose replies are hexadecimal keeps. -/
structure HexInv (g : Gateway) : Prop where
  sound : g.custody.Sound
  ids : g.custody.HexIds

theorem HexInv.step (h : HexInv g) (hreply : ReplyHexadecimal E g (w, e)) (hstep : step E g (w, e) = some g') :
    HexInv g' := by
  obtain ⟨ops, hasks, hallows, hrun⟩ := step_custody h.sound hstep
  have hids := Custody.Along.run (P := Custody.HexIds) (fun o op ho hop => ho.apply op hop) h.ids
    (renamesHex_of_asks hreply hasks)
  refine ⟨sound_step h.sound hstep, ?_⟩
  rw [hrun]
  exact hids

theorem HexInv.handsOver {j : ConnId} (h : HexInv g) (hreply : ReplyHexadecimal E g (w, e))
    (hover : HandsOver E w g e j userid) :
    Hexadecimal userid := by
  obtain ⟨i, joined, name, hjoins, -, c, d, -, -, -, hd, rfl⟩ := hover
  exact h.ids.apply (.rename i joined) (hjoins.hexadecimal hreply) j d hd

/-- A client of `Login` under its native handle is handed over when it joins. -/
theorem Joins.handsOver {c : Client} (hjoins : Joins E w g i userid name e) (hfits : LoginFits userid name)
    (hc : g.objects[i]? = some c) (howner : c.owner = .login)
    (hpending : g.pendingClients.lookup c.socket.native_handle = some (some i)) : HandsOver E w g e i userid := by
  have hrenamed : (g.custody.apply (.rename i userid)).holders[i]? = some { c.holder with userid := userid } :=
    Custody.modify_self (holder_of_object hc)
  exact ⟨i, userid, name, hjoins, hfits, _, _, hrenamed, howner, held_pending_iff.mpr hpending, hrenamed, rfl⟩

/-- A client that is new under a key of `clients` has been handed over under it: `addClient` takes the key from where it
takes the id in the queries. -/
theorem handsOver_of_entered {j : ConnId} (hs : g.custody.Sound) (hstep : step E g (w, e) = some g')
    (hentry : g'.clients.lookup userid = some (some j)) (hnew : g.clients.lookup userid ≠ some (some j)) :
    HandsOver E w g e j userid := by
  obtain ⟨ops, hasks, -, hrun⟩ := step_custody hs hstep
  have hheld : (g.custody.run ops).held (.client userid) = some j := hrun ▸ held_client_iff.mpr hentry
  have hnot : g.custody.held (.client userid) ≠ some j := fun h => hnew (held_client_iff.mp h)
  cases hasks with
  | @logsIn i joined name hjoins hfits =>
    have hrenamed : (g.custody.apply (.rename i joined)).Sound := hs.apply (.rename i joined) trivial
    exact ⟨i, joined, name, hjoins, hfits, (Custody.held_of_login hrenamed.owned hheld).resolve_left hnot⟩
  | unframed hjoins hfits hops =>
    rcases hops with rfl | ⟨rfl, -⟩
    · exact absurd hheld hnot
    · exact absurd (Custody.held_of_disconnect hheld) hnot
  | fails hfails hops =>
    rcases hops with rfl | rfl
    · exact absurd (Custody.held_of_disconnect hheld) hnot
    · exact absurd (Custody.held_of_disconnect hheld) hnot
  | other hjoins hfails hminor =>
    cases hminor with
    | construct =>
      have hkept : (Function.update g.custody.held .accepting (some g.custody.holders.length)) (.client userid) =
        some j := hheld
      rw [Function.update_of_ne (by simp)] at hkept
      exact absurd hkept hnot
    | insert hi => exact absurd (Custody.held_client_insert.symm.trans hheld) hnot
    | drop hc halive hstate => exact absurd (Custody.held_of_disconnect hheld) hnot
    | _ => exact absurd hheld hnot

end Events

/-- **The queries.** In a run in which the session server's replies give hexadecimal ids, every client that is handed to
`ClientServer` has a hexadecimal id, and the texts of its queries are the statements they are meant to be. -/
theorem spliced_of_replyHexadecimal (E : Env) (run : List (World × Event)) (g : Gateway)
    (hrun : runFrom (step E) Gateway.init run = some g)
    (hreplies : AllSteps (step E) (ReplyHexadecimal E) Gateway.init run) (w : World) (e : Event)
    (hreply : ReplyHexadecimal E g (w, e)) (j : ConnId) (userid : Bytes) (hover : HandsOver E w g e j userid) :
      Spliced userid := by
  have hinv : AllStates (step E) HexInv Gateway.init run :=
    allStates_of_inv (fun _ _ _ h hreply hstep => h.step hreply hstep) ⟨Custody.sound_init,
      fun _ _ hc => by cases hc⟩ hreplies
  exact ((hinv.last hrun).handsOver hreply hover).spliced

/-! ## Two replies -/

/-- A player's request, up to the body of the reply. -/
def replyArrives : List (World × Event) := plainRun (loginStarts ++ [secretArrives 5] ++ (requestCompletes 0).take 4)

abbrev Env.withId (id : Bytes) : Env := .plain playerInfo id (ascii "Player")

/-- Whatever the id is, the player is handed over under it. -/
theorem replyArrives_handsOver (id : Bytes) (hfits : LoginFits (formatUUID id) (ascii "Player"))
    (hrun : (runFrom (step (.withId id)) Gateway.init replyArrives).map (fun g =>
      (g.objects[0]?.map fun c => (c.owner, c.socket.native_handle, c.requests[0]?.map (·.stage)),
        g.pendingClients.lookup 7)) =
        some (some (.login, 7, some (.readingBody 57 [])), some (some 0))) :
    ∃ g, runFrom (step (.withId id)) Gateway.init replyArrives = some g ∧
      HandsOver (.withId id) .plain g (.onHasJoinedPostComplete 0 0 .none playerInfo) 0 (formatUUID id) := by
  obtain ⟨g, hg, hstate⟩ := Option.map_eq_some_iff.mp hrun
  obtain ⟨hclient, hpending⟩ := Prod.mk.inj hstate
  refine ⟨g, hg, ?_⟩
  obtain ⟨c, hc, hfields⟩ := Option.map_eq_some_iff.mp hclient
  obtain ⟨howner, hhandle, hrequest⟩ : _ ∧ _ ∧ _ := by simpa only [Prod.mk.injEq] using hfields
  obtain ⟨r, hr, hstage⟩ := Option.map_eq_some_iff.mp hrequest
  have hof : stageOf g 0 0 = some r := by
    unfold stageOf
    rw [hc]
    exact hr
  have hreply : replyOf (.withId id) ([] ++ playerInfo) 57 = some (id, ascii "Player") := by
    have hall : (playerInfo.take 57).takeWhile (· != 0) = playerInfo := by decide +kernel
    unfold replyOf
    rw [List.nil_append, hall]
    show (if playerInfo = playerInfo then some (id, ascii "Player") else none) = _
    rw [if_pos rfl]
  refine (Joins.reply hof hstage ?_ hreply rfl).handsOver hfits hc howner (hhandle ▸ hpending)
  rintro (hother | ⟨heof, -⟩)
  · cases hother
  · cases heof

theorem replyHexadecimal_withId (id : Bytes) (hid : Hexadecimal id) (g : Gateway) (e : World × Event) :
    ReplyHexadecimal (.withId id) g e := by
  intro i k error more r length data id' name _ _ _ hreply
  unfold replyOf at hreply
  obtain ⟨-, hpair⟩ := Option.ite_none_right_eq_some.mp hreply
  obtain ⟨rfl, -⟩ := Prod.mk.inj (Option.some.inj hpair)
  exact hid

theorem spliced_player : Spliced (formatUUID (ascii "0123456789abcdef0123456789abcdef")) := by
  obtain ⟨g, hg, hover⟩ := replyArrives_handsOver (ascii "0123456789abcdef0123456789abcdef") (by decide +kernel)
    (by decide +kernel)
  have hhex := replyHexadecimal_withId (ascii "0123456789abcdef0123456789abcdef") (by decide +kernel)
  exact spliced_of_replyHexadecimal _ replyArrives g hg (allSteps_of_forall hhex) .plain _ (hhex g _) 0 _ hover

/-- An id with a quote in it comes out of the session server's reply and goes into the queries. -/
theorem quote_is_spliced :
    ¬ ∀ (E : Env) (run : List (World × Event)) (g : Gateway), runFrom (step E) Gateway.init run = some g →
      ∀ (w : World) (e : Event) (j : ConnId) (userid : Bytes), HandsOver E w g e j userid → Spliced userid := by
  intro h
  obtain ⟨g, hg, hover⟩ := replyArrives_handsOver (ascii "' OR '1'='1") (by decide +kernel) (by decide +kernel)
  have hspliced := h _ replyArrives g hg .plain _ 0 _ hover
  exact absurd (hexadecimal_formatUUID.mp hspliced.hexadecimal) (by decide)

end CeriosCluster.ClientGateway
