import Mathlib.Data.List.Nodup

/-!
# A loop over a map that its visits erase from

A loop goes over the keys of a map in some order. A visit may erase a key, which is then not visited any more; the loop
cannot go on from a key that its own visit has erased, nor visit a null pointer. When each key that has something to do
is visited can be told from the keys each visit erases.
-/

namespace CeriosCluster.Lib.ErasingLoop

variable {κ : Type}

inductive Visit (κ : Type)
  | null
  | idle
  | erases (target : κ)

variable [DecidableEq κ] (visit : κ → Visit κ)

def erase (present : κ → Bool) (target : κ) : κ → Bool := fun key => key != target && present key

/-- The loop over the rest of the order: the keys whose visit has erased something, unless the loop gets stuck. -/
def loop : List κ → (κ → Bool) → Option (List κ)
  | [], _ => some []
  | key :: rest, present =>
    if present key then
      match visit key with
      | .null => none
      | .idle => loop rest present
      | .erases target => if target = key then none else (loop rest (erase present target)).map (key :: ·)
    else loop rest present

def Before (order : List κ) (a b : κ) : Prop := ∃ before after, order = before ++ b :: after ∧ a ∈ before

/-- No visit erases its own key, or a key with something to erase that is not visited yet, and every null pointer is
erased before its turn. -/
structure Orderly (order : List κ) : Prop where
  other : ∀ key ∈ order, ∀ target, visit key = .erases target → target ≠ key
  later : ∀ key ∈ order, ∀ target ∈ order, visit key = .erases target → ∀ target', visit target = .erases target' →
    Before order target key
  null : ∀ key ∈ order, visit key = .null → ∃ eraser, visit eraser = .erases key ∧ Before order eraser key

variable {visit} {order before rest : List κ} {present : κ → Bool} {key target : κ} {visited : List κ}

theorem erase_iff : erase present target key = true ↔ key ≠ target ∧ present key = true := by
  unfold erase
  rw [Bool.and_eq_true_iff, bne_iff_ne]

theorem mem_of_loop (h : loop visit rest present = some visited) (hkey : key ∈ visited) :
    key ∈ rest ∧ present key = true := by
  induction rest generalizing present visited with
  | nil =>
    obtain rfl : [] = visited := Option.some.inj h
    cases hkey
  | cons k rest ih =>
    rw [loop] at h
    split at h
    · next hpresent =>
      split at h
      · cases h
      · obtain ⟨hmem, hp⟩ := ih h hkey
        exact ⟨List.mem_cons_of_mem _ hmem, hp⟩
      · next target =>
        split at h
        · cases h
        · obtain ⟨visited', hrest, rfl⟩ := Option.map_eq_some_iff.mp h
          rcases List.mem_cons.mp hkey with rfl | hkey
          · exact ⟨List.mem_cons_self, hpresent⟩
          · obtain ⟨hmem, hp⟩ := ih hrest hkey
            exact ⟨List.mem_cons_of_mem _ hmem, (erase_iff.mp hp).2⟩
    · obtain ⟨hmem, hp⟩ := ih h hkey
      exact ⟨List.mem_cons_of_mem _ hmem, hp⟩

/-- What a visit does matters only at the keys that are there, and whether a key is there only in the rest of the
order. -/
theorem loop_congr {visit' : κ → Visit κ} {present' : κ → Bool} (hpresent : ∀ key ∈ rest, present key = present' key)
    (hvisit : ∀ key ∈ rest, present key = true → visit key = visit' key) :
      loop visit rest present = loop visit' rest present' := by
  induction rest generalizing present present' with
  | nil => rfl
  | cons k rest ih =>
    have hskip : loop visit rest present = loop visit' rest present' :=
      ih (fun key hkey => hpresent key (List.mem_cons_of_mem _ hkey)) fun key hkey =>
        hvisit key (List.mem_cons_of_mem _ hkey)
    have herase (target : κ) : loop visit rest (erase present target) = loop visit' rest (erase present' target) := by
      apply ih
      · intro key hkey
        unfold erase
        rw [hpresent key (List.mem_cons_of_mem _ hkey)]
      · intro key hkey hthere
        exact hvisit key (List.mem_cons_of_mem _ hkey) (erase_iff.mp hthere).2
    rw [loop, loop, ← hpresent k List.mem_cons_self]
    split
    · next hthere =>
      rw [← hvisit k List.mem_cons_self hthere, hskip]
      cases visit k with
      | null => rfl
      | idle => rfl
      | erases target =>
        dsimp only
        rw [herase target]
    · exact hskip

theorem nodup_of_loop (hnodup : rest.Nodup) (h : loop visit rest present = some visited) : visited.Nodup := by
  induction rest generalizing present visited with
  | nil =>
    obtain rfl : [] = visited := Option.some.inj h
    exact List.nodup_nil
  | cons k rest ih =>
    obtain ⟨hk, hnodup⟩ := List.nodup_cons.mp hnodup
    rw [loop] at h
    split at h
    · split at h
      · cases h
      · exact ih hnodup h
      · split at h
        · cases h
        · obtain ⟨visited', hrest, rfl⟩ := Option.map_eq_some_iff.mp h
          exact List.nodup_cons.mpr ⟨fun hmem => hk (mem_of_loop hrest hmem).1, ih hnodup hrest⟩
    · exact ih hnodup h

/-- The keys that are there are those that none of the visits so far has erased. -/
def Left (visit : κ → Visit κ) (before : List κ) (present : κ → Bool) : Prop :=
  ∀ key, present key = true ↔ ∀ eraser ∈ before, visit eraser ≠ .erases key

theorem Left.erase (h : Left visit before present) (hkey : visit key = .erases target) :
    Left visit (before ++ [key]) (erase present target) := by
  intro k
  rw [erase_iff, h k]
  constructor
  · rintro ⟨hne, hbefore⟩ eraser heraser herases
    rcases List.mem_append.mp heraser with hmem | hmem
    · exact hbefore eraser hmem herases
    · obtain rfl := List.mem_singleton.mp hmem
      rw [hkey] at herases
      exact hne (Visit.erases.inj herases).symm
  · intro hall
    refine ⟨?_, fun eraser hmem => hall eraser (List.mem_append_left _ hmem)⟩
    rintro rfl
    exact hall key (List.mem_append_right _ List.mem_cons_self) hkey

omit [DecidableEq κ] in
theorem Left.skip (h : Left visit before present) (hkey : ∀ target, visit key ≠ .erases target) :
    Left visit (before ++ [key]) present := by
  intro k
  rw [h k]
  refine ⟨fun hall eraser hmem => ?_, fun hall eraser hmem => hall eraser (List.mem_append_left _ hmem)⟩
  rcases List.mem_append.mp hmem with hmem | hmem
  · exact hall eraser hmem
  · obtain rfl := List.mem_singleton.mp hmem
    exact hkey k

omit [DecidableEq κ] in
theorem before_iff (hnodup : order.Nodup) (hsplit : order = before ++ key :: rest) {a : κ} :
    Before order a key ↔ a ∈ before := by
  rw [hsplit, List.nodup_append] at hnodup
  obtain ⟨-, hrest, hdisjoint⟩ := hnodup
  refine ⟨?_, fun ha => ⟨before, rest, hsplit, ha⟩⟩
  rintro ⟨before', after', hsplit', ha⟩
  have hbefore : key ∉ before := fun hmem => hdisjoint key hmem key List.mem_cons_self rfl
  have hafter : key ∉ rest := (List.nodup_cons.mp hrest).1
  obtain ⟨rfl, -⟩ := (List.append_cons_inj_of_notMem hbefore hafter).mp (hsplit.symm.trans hsplit')
  exact ha

omit [DecidableEq κ] in
theorem Before.asymm (hnodup : order.Nodup) {a b : κ} (h : Before order a b) : ¬ Before order b a := by
  obtain ⟨before, after, hsplit, ha⟩ := h
  obtain ⟨front, back, rfl⟩ := List.append_of_mem ha
  rw [List.append_assoc] at hsplit
  rw [before_iff hnodup hsplit]
  intro hb
  rw [hsplit, List.nodup_append] at hnodup
  exact hnodup.2.2 b hb b (by simp) rfl

/-- In an orderly map every key with something to erase is visited. -/
theorem loop_of_orderly (hnodup : order.Nodup) (horderly : Orderly visit order) (hsplit : order = before ++ rest)
    (hleft : Left visit before present) :
    ∃ visited, loop visit rest present = some visited ∧ ∀ key ∈ rest, ∀ target, visit key = .erases target →
      key ∈ visited := by
  induction rest generalizing before present with
  | nil => exact ⟨[], rfl, fun key hkey => by cases hkey⟩
  | cons k rest ih =>
    have hmem : k ∈ order := by simp [hsplit]
    have hsplit' : order = (before ++ [k]) ++ rest := by simp [hsplit]
    cases hvisit : visit k with
    | null =>
      obtain ⟨eraser, heraser, hbefore⟩ := horderly.null k hmem hvisit
      have habsent : ¬ present k = true := by
        rw [hleft k]
        exact fun hall => hall eraser ((before_iff hnodup hsplit).mp hbefore) heraser
      obtain ⟨visited, hloop, hall⟩ := ih hsplit' (hleft.skip fun target h => by cases hvisit.symm.trans h)
      refine ⟨visited, by rw [loop, if_neg habsent, hloop], fun key hkey target herases => ?_⟩
      rcases List.mem_cons.mp hkey with rfl | hkey
      · cases hvisit.symm.trans herases
      · exact hall key hkey target herases
    | idle =>
      obtain ⟨visited, hloop, hall⟩ := ih hsplit' (hleft.skip fun target h => by cases hvisit.symm.trans h)
      refine ⟨visited, ?_, fun key hkey target herases => ?_⟩
      · rw [loop, hvisit]
        split <;> exact hloop
      · rcases List.mem_cons.mp hkey with rfl | hkey
        · cases hvisit.symm.trans herases
        · exact hall key hkey target herases
    | erases target =>
      have hpresent : present k = true := by
        rw [hleft k]
        intro eraser heraser herases
        have hin : eraser ∈ order := by simp [hsplit, heraser]
        exact (horderly.later eraser hin k hmem herases target hvisit).asymm hnodup
          ((before_iff hnodup hsplit).mpr heraser)
      obtain ⟨visited, hloop, hall⟩ := ih hsplit' (hleft.erase hvisit)
      refine ⟨k :: visited, ?_, fun key hkey target' herases => ?_⟩
      · rw [loop, if_pos hpresent, hvisit]
        dsimp only
        rw [if_neg (horderly.other k hmem target hvisit), hloop]
        rfl
      · rcases List.mem_cons.mp hkey with rfl | hkey
        · exact List.mem_cons_self
        · exact List.mem_cons_of_mem _ (hall key hkey target' herases)

/-- If every key with something to erase is visited, what the rest of the order needs is so. -/
theorem orderly_of_loop (hnodup : order.Nodup) (hsplit : order = before ++ rest) (hleft : Left visit before present)
    (hloop : loop visit rest present = some visited)
    (hall : ∀ key ∈ rest, ∀ target, visit key = .erases target → key ∈ visited) (hkey : key ∈ rest) :
    (∀ target, visit key = .erases target → target ≠ key ∧
        (target ∈ order → ∀ target', visit target = .erases target' → Before order target key)) ∧
      (visit key = .null → ∃ eraser, visit eraser = .erases key ∧ Before order eraser key) := by
  induction rest generalizing before present visited with
  | nil => cases hkey
  | cons k rest ih =>
    have hsplit' : order = (before ++ [k]) ++ rest := by simp [hsplit]
    have hrest : ∀ key ∈ rest, key ≠ k := by
      rw [hsplit, List.nodup_append] at hnodup
      intro key hkey heq
      rw [heq] at hkey
      exact (List.nodup_cons.mp hnodup.2.1).1 hkey
    rw [loop] at hloop
    cases hvisit : visit k with
    | null =>
      rw [hvisit] at hloop
      have habsent : ¬ present k = true := by
        intro hpresent
        rw [if_pos hpresent] at hloop
        cases hloop
      rw [if_neg habsent] at hloop
      rcases List.mem_cons.mp hkey with rfl | hkey
      · refine ⟨fun target h => (by cases hvisit.symm.trans h), fun _ => ?_⟩
        rw [hleft key] at habsent
        obtain ⟨eraser, habsent⟩ := not_forall.mp habsent
        obtain ⟨heraser, herases⟩ := Classical.not_imp.mp habsent
        exact ⟨eraser, not_not.mp herases, before, rest, hsplit, heraser⟩
      · exact ih hsplit' (hleft.skip fun target h => by cases hvisit.symm.trans h) hloop
          (fun key hkey => hall key (List.mem_cons_of_mem _ hkey)) hkey
    | idle =>
      have hloop : loop visit rest present = some visited := by
        rw [hvisit] at hloop
        split at hloop <;> exact hloop
      rcases List.mem_cons.mp hkey with rfl | hkey
      · exact ⟨fun target h => (by cases hvisit.symm.trans h), fun h => by cases hvisit.symm.trans h⟩
      · exact ih hsplit' (hleft.skip fun target h => by cases hvisit.symm.trans h) hloop
          (fun key hkey => hall key (List.mem_cons_of_mem _ hkey)) hkey
    | erases target =>
      have hvisited : k ∈ visited := hall k List.mem_cons_self target hvisit
      have hpresent : present k = true := by
        by_contra habsent
        rw [if_neg habsent] at hloop
        exact hrest k (mem_of_loop hloop hvisited).1 rfl
      rw [if_pos hpresent, hvisit] at hloop
      dsimp only at hloop
      split at hloop
      · cases hloop
      · next hne =>
        obtain ⟨visited', hloop', rfl⟩ := Option.map_eq_some_iff.mp hloop
        have hall' : ∀ key ∈ rest, ∀ target, visit key = .erases target → key ∈ visited' := by
          intro key hkey target' herases
          rcases List.mem_cons.mp (hall key (List.mem_cons_of_mem _ hkey) target' herases) with heq | hmem
          · exact absurd heq (hrest key hkey)
          · exact hmem
        rcases List.mem_cons.mp hkey with rfl | hkey
        · refine ⟨fun target₁ h => ?_, fun h => by cases hvisit.symm.trans h⟩
          obtain rfl := Visit.erases.inj (hvisit.symm.trans h)
          refine ⟨hne, fun hin target' herases => ⟨before, rest, hsplit, ?_⟩⟩
          rw [hsplit] at hin
          rcases List.mem_append.mp hin with hin | hin
          · exact hin
          · rcases List.mem_cons.mp hin with heq | hin
            · exact absurd heq hne
            · -- a key that is erased now is not visited later
              have hlater := (mem_of_loop hloop' (hall' target hin target' herases)).2
              exact absurd rfl (erase_iff.mp hlater).1
        · exact ih hsplit' (hleft.erase hvisit) hloop' hall' hkey

/-- **Exact order.** The loop over a map all of whose keys are there visits every key with something to erase exactly
when the map is orderly. -/
theorem loop_iff (hnodup : order.Nodup) :
    (∃ visited, loop visit order (fun _ => true) = some visited ∧
        ∀ key ∈ order, ∀ target, visit key = .erases target → key ∈ visited) ↔ Orderly visit order := by
  have hleft : Left visit [] fun _ => true := fun key => by simp
  constructor
  · rintro ⟨visited, hloop, hall⟩
    have hkeys (key : κ) (hkey : key ∈ order) := orderly_of_loop hnodup rfl hleft hloop hall hkey
    exact ⟨fun key hkey target h => ((hkeys key hkey).1 target h).1,
      fun key hkey target hin h => ((hkeys key hkey).1 target h).2 hin, fun key hkey => (hkeys key hkey).2⟩
  · exact fun horderly => loop_of_orderly hnodup horderly rfl hleft

end CeriosCluster.Lib.ErasingLoop
