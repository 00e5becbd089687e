import CeriosCluster.ClientGateway.Automaton
import CeriosCluster.Lib.Split

/-!
# What the session server is asked

`authWithMojang` puts the player's name into its request as it is. The server takes the request apart again: into its
first line and the header block, the line into method, target and version, and the query of the target at `&` and `=`.
It finds the name in it exactly when the name has none of the characters it takes the request apart at.
-/

namespace CeriosCluster.ClientGateway

open CeriosCluster.Lib CeriosCluster.MCPacket

/-! ## Taking a request apart -/

structure HttpRequest where
  method : Bytes
  version : Bytes
  query : List (List Bytes)
  headerBlock : Bytes
  deriving DecidableEq

/-- No carriage return and no line feed. -/
def inLine (b : Byte) : Bool := b != 0x0d && b != 0x0a

def queryOf (target : Bytes) : Bytes := ((target.takeWhile (· != 0x23)).dropWhile (· != 0x3f)).drop 1

/-- The first line is three words; the query is split at `&` and its pieces at `=`. -/
def parseRequest (text : Bytes) : Option HttpRequest :=
  match (text.takeWhile inLine).splitOn 0x20 with
  | [method, target, version] =>
    some ⟨method, version, ((queryOf target).splitOn 0x26).map (·.splitOn 0x3d), text.dropWhile inLine⟩
  | _ => none

/-! ## The request of a player -/

/-- The header block, which no name is in. -/
def requestHeaders : Bytes :=
  ascii "\r\n" ++ ascii "Host: " ++ ascii "sessionserver.mojang.com" ++ ascii "\r\n" ++
    ascii "User-Agent: " ++ ascii "Cerios Cluster (Minecraft Server)" ++ ascii "\r\n" ++
    ascii "Connection: " ++ ascii "Close" ++ ascii "\r\n\r\n"

def intended (name digest : Bytes) : HttpRequest where
  method := ascii "GET"
  version := ascii "HTTP/1.1"
  query := [[ascii "username", name], [ascii "serverId", digest]]
  headerBlock := requestHeaders

/-- The text of a digest in base 16, with its sign. -/
abbrev HexDigest := { digest : Bytes // Hexadecimal digest }

/-- No character that a request is taken apart at. -/
def Plain (name : Bytes) : Prop := ∀ b ∈ name, b ∉ ascii " &=#\r\n"

instance (name : Bytes) : Decidable (Plain name) := inferInstanceAs (Decidable (∀ b ∈ name, _))

section Request

variable {name digest : Bytes}

def targetOf (name digest : Bytes) : Bytes :=
  ascii "/session/minecraft/hasJoined" ++
    0x3f :: (ascii "username" ++ 0x3d :: name ++ 0x26 :: (ascii "serverId" ++ 0x3d :: digest))

def lineOf (name digest : Bytes) : Bytes := ascii "GET" ++ 0x20 :: (targetOf name digest ++ 0x20 :: ascii "HTTP/1.1")

theorem requestText_eq : requestText name digest = lineOf name digest ++ requestHeaders := by
  have hget : ascii "GET " = ascii "GET" ++ [0x20] := rfl
  have husername : ascii "?username=" = 0x3f :: (ascii "username" ++ [0x3d]) := rfl
  have hserverId : ascii "&serverId=" = 0x26 :: (ascii "serverId" ++ [0x3d]) := rfl
  have hversion : ascii " HTTP/1.1" = 0x20 :: ascii "HTTP/1.1" := rfl
  unfold requestText lineOf targetOf requestHeaders
  rw [hget, husername, hserverId, hversion]
  simp only [List.append_assoc, List.cons_append, List.nil_append]

theorem mem_of_mem_targetOf {b : Byte} (h : b ∈ targetOf name digest) :
    b ∈ ascii "/session/minecraft/hasJoined?username=&serverId=" ∨ b ∈ name ∨ b ∈ digest := by
  have hfixed : ascii "/session/minecraft/hasJoined?username=&serverId=" = ascii "/session/minecraft/hasJoined" ++
      0x3f :: (ascii "username" ++ 0x3d :: 0x26 :: (ascii "serverId" ++ [0x3d])) := rfl
  rw [hfixed]
  unfold targetOf at h
  generalize ascii "/session/minecraft/hasJoined" = path, ascii "username" = username,
    ascii "serverId" = serverId at h ⊢
  simp only [List.mem_append, List.mem_cons] at h ⊢
  tauto

theorem not_mem_targetOf {b : Byte} (hname : Plain name) (hdigest : Plain digest) (hb : b ∈ ascii " &=#\r\n")
    (hfixed : b ∉ ascii "/session/minecraft/hasJoined?username=&serverId=") : b ∉ targetOf name digest := by
  intro h
  rcases mem_of_mem_targetOf h with h | h | h
  · exact hfixed h
  · exact hname b h hb
  · exact hdigest b h hb

theorem plain_hexDigest (d : HexDigest) : Plain d.val := by
  have hall : ∀ b : Byte, isXDigit b = true ∨ b = 0x2d → b ∉ ascii " &=#\r\n" := by decide +kernel
  exact fun b hb => hall b (d.property b hb)

theorem queryOf_targetOf (hname : Plain name) (hdigest : Plain digest) :
    queryOf (targetOf name digest) = (ascii "username" ++ 0x3d :: name) ++
      0x26 :: (ascii "serverId" ++ 0x3d :: digest) := by
  have hfragment : 0x23 ∉ targetOf name digest := not_mem_targetOf hname hdigest (by decide) (by decide)
  have huri : (targetOf name digest).takeWhile (· != 0x23) = targetOf name digest := by
    rw [List.takeWhile_eq_self_iff]
    intro b hb
    have hne : b ≠ 0x23 := by
      rintro rfl
      exact hfragment hb
    simpa using hne
  unfold queryOf
  rw [huri]
  unfold targetOf
  rw [List.dropWhile_append_of_pos (by decide), List.dropWhile_cons_of_neg (by decide)]
  rfl

theorem split_query (hname : Plain name) (hdigest : Plain digest) :
    ((queryOf (targetOf name digest)).splitOn 0x26).map (·.splitOn 0x3d) =
      [[ascii "username", name], [ascii "serverId", digest]] := by
  have hnot {b : Byte} {text : Bytes} (htext : Plain text) (hb : b ∈ ascii " &=#\r\n") : b ∉ text :=
    fun h => htext b h hb
  have hpiece {b : Byte} {key text : Bytes} (hkey : b ∉ key) (hne : b ≠ 0x3d) (htext : b ∉ text) :
    b ∉ key ++ 0x3d :: text := by
    simp only [List.mem_append, List.mem_cons, hkey, hne, htext, or_false, not_false_eq_true]
  have hfirst : (0x26 : Byte) ∉ ascii "username" ++ 0x3d :: name :=
    hpiece (by decide) (by decide) (hnot hname (by decide))
  have hsecond : (0x26 : Byte) ∉ ascii "serverId" ++ 0x3d :: digest :=
    hpiece (by decide) (by decide) (hnot hdigest (by decide))
  rw [queryOf_targetOf hname hdigest, List.splitOn_append_cons_self_of_not_mem hfirst,
    List.splitOn_eq_singleton hsecond, List.map_cons, List.map_singleton,
      List.splitOn_append_cons_self_of_not_mem (by decide),
    List.splitOn_append_cons_self_of_not_mem (by decide), List.splitOn_eq_singleton (hnot hname (by decide)),
    List.splitOn_eq_singleton (hnot hdigest (by decide))]

theorem inLine_lineOf (hname : Plain name) (hdigest : Plain digest) : ∀ b ∈ lineOf name digest, inLine b = true := by
  have hcr : 0x0d ∉ targetOf name digest := not_mem_targetOf hname hdigest (by decide) (by decide)
  have hlf : 0x0a ∉ targetOf name digest := not_mem_targetOf hname hdigest (by decide) (by decide)
  have hget : ∀ b ∈ ascii "GET", inLine b = true := by decide
  have hversion : ∀ b ∈ ascii "HTTP/1.1", inLine b = true := by decide
  intro b hb
  unfold lineOf at hb
  simp only [List.mem_append, List.mem_cons] at hb
  rcases hb with hb | rfl | hb | rfl | hb
  · exact hget b hb
  · rfl
  · have hne : b ≠ 0x0d ∧ b ≠ 0x0a := ⟨fun heq => hcr (heq ▸ hb), fun heq => hlf (heq ▸ hb)⟩
    unfold inLine
    simpa using hne
  · rfl
  · exact hversion b hb

theorem splitOn_lineOf (hname : Plain name) (hdigest : Plain digest) :
    (lineOf name digest).splitOn 0x20 = [ascii "GET", targetOf name digest, ascii "HTTP/1.1"] := by
  have hspace : 0x20 ∉ targetOf name digest := not_mem_targetOf hname hdigest (by decide) (by decide)
  unfold lineOf
  rw [List.splitOn_append_cons_self_of_not_mem (by decide), List.splitOn_append_cons_self_of_not_mem hspace,
    List.splitOn_eq_singleton (by decide)]

/-- The request of a plain name is seen as intended. -/
theorem parseRequest_plain (hname : Plain name) (hdigest : Plain digest) :
    parseRequest (requestText name digest) = some (intended name digest) := by
  have hline := inLine_lineOf hname hdigest
  have hheaders : requestHeaders.takeWhile inLine = [] ∧ requestHeaders.dropWhile inLine = requestHeaders := ⟨rfl, rfl⟩
  unfold parseRequest
  rw [requestText_eq, List.takeWhile_append_of_pos hline, List.dropWhile_append_of_pos hline, hheaders.1, hheaders.2,
    List.append_nil, splitOn_lineOf hname hdigest]
  dsimp only
  rw [split_query hname hdigest]
  rfl

/-- A name that the server finds in its query is plain. -/
theorem plain_of_parseRequest {text : Bytes} (h : parseRequest text = some (intended name digest)) : Plain name := by
  unfold parseRequest at h
  split at h
  · next method target version hwords =>
    obtain ⟨-, -, hquery, -⟩ : _ ∧ _ ∧ _ ∧ _ := by
      simpa only [intended, Option.some.injEq, HttpRequest.mk.injEq] using h
    have htarget : target ∈ (text.takeWhile inLine).splitOn 0x20 := by
      rw [hwords]
      exact List.mem_cons_of_mem _ List.mem_cons_self
    have hpair : [ascii "username", name] ∈ ((queryOf target).splitOn 0x26).map (·.splitOn 0x3d) := by
      rw [hquery]
      exact List.mem_cons_self
    obtain ⟨piece, hpiece, hsplit⟩ := List.mem_map.mp hpair
    have hname : name ∈ piece.splitOn 0x3d := by
      rw [hsplit]
      exact List.mem_cons_of_mem _ List.mem_cons_self
    intro b hb hseparator
    have hinPiece : b ∈ piece := subset_of_mem_splitOn hname hb
    have hinQuery : b ∈ queryOf target := subset_of_mem_splitOn hpiece hinPiece
    have hinUri : b ∈ target.takeWhile (· != 0x23) :=
      (List.dropWhile_sublist _).subset (List.mem_of_mem_drop hinQuery)
    have hinTarget : b ∈ target := (List.takeWhile_sublist _).subset hinUri
    have hinLine : inLine b = true := List.mem_takeWhile_imp (subset_of_mem_splitOn htarget hinTarget)
    have hfragment : (b != 0x23) = true := List.mem_takeWhile_imp (p := (· != 0x23)) hinUri
    have hspace : b ≠ 0x20 := by
      rintro rfl
      exact not_mem_of_mem_splitOn htarget hinTarget
    have hand : b ≠ 0x26 := by
      rintro rfl
      exact not_mem_of_mem_splitOn hpiece hinPiece
    have hequals : b ≠ 0x3d := by
      rintro rfl
      exact not_mem_of_mem_splitOn hname hb
    have hnone : ∀ b : Byte, inLine b = true → (b != 0x23) = true → b ≠ 0x20 → b ≠ 0x26 → b ≠ 0x3d →
      b ∉ ascii " &=#\r\n" := by
      decide +kernel
    exact hnone b hinLine hfragment hspace hand hequals hseparator
  · cases h

/-- Behind the last `=` of a request line stands the digest. -/
theorem requestText_injective {name' : Bytes} {d d' : HexDigest}
    (h : requestText name d.val = requestText name' d'.val) :
    name = name' ∧ d = d' := by
  have hequals (d : HexDigest) : 0x3d ∉ d.val := fun hmem => plain_hexDigest d _ hmem (by decide)
  rw [requestText_eq, requestText_eq] at h
  have hline := List.append_cancel_right h
  unfold lineOf at hline
  have htarget := List.append_cancel_right (List.cons.inj (List.append_cancel_left hline)).2
  unfold targetOf at htarget
  have hquery := (List.cons.inj (List.append_cancel_left htarget)).2
  rw [List.append_assoc, List.append_assoc] at hquery
  have hpieces := (List.cons.inj (List.append_cancel_left hquery)).2
  have hassoc (name digest : Bytes) : name ++ 0x26 :: (ascii "serverId" ++ 0x3d :: digest) =
      (name ++ 0x26 :: ascii "serverId") ++ 0x3d :: digest := by
    rw [List.append_assoc, List.cons_append]
  obtain ⟨hname, hdigest⟩ := append_cons_cancel ((hassoc _ _).symm.trans (hpieces.trans (hassoc _ _))) (hequals d)
    (hequals d')
  exact ⟨List.append_cancel_right hname, Subtype.ext hdigest⟩

end Request

/-! ## The request that is sent -/

theorem run_authWithMojang {w : World} {g : Gateway} {i : ConnId} {c : Client} {sharedSecret digest : Bytes}
    (hl : Live g i c) (hresolves : w.resolves = true) :
    authWithMojang w i sharedSecret digest g =
      .ok () (g.modify i (·.request sharedSecret (requestText c.requestedUsername digest))) := by
  unfold authWithMojang
  rw [Exec.run_bind_ok (run_client hl), hresolves]
  exact run_modifyClient hl

/-- **The request's integrity.** The server sees the request of a name as it is intended exactly when the name is plain,
and different names or digests never give the same request. -/
theorem parseRequest_iff (name : Bytes) (digest : HexDigest) :
    (parseRequest (requestText name digest.val) = some (intended name digest.val) ↔ Plain name) ∧
      ∀ (name' : Bytes) (digest' : HexDigest),
        requestText name digest.val = requestText name' digest'.val → name = name' ∧ digest = digest' :=
  ⟨⟨plain_of_parseRequest, fun hname => parseRequest_plain hname (plain_hexDigest digest)⟩,
    fun _ _ => requestText_injective⟩

/-- A name with an ampersand in it. -/
theorem ampersand_splits_the_name :
    ¬ ∀ (name : Bytes) (digest : HexDigest), parseRequest (requestText name digest.val) =
      some (intended name digest.val) := by
  intro h
  have hplain := plain_of_parseRequest (h (ascii "a&serverId=0") ⟨ascii "1", by decide⟩)
  exact absurd hplain (by decide)

end CeriosCluster.ClientGateway
