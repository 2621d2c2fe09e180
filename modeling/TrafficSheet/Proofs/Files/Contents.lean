import Mathlib
import TrafficSheet.Files.Tree

/-!
# What a file holds does not matter to paths

Paths are followed through directories only. So when the bytes of a file are replaced, every
path leads where it led before (`resolve_put`), a file can be written wherever one could be
(`target_put`), and reading gives something else for that file only (`read_put_cases`).
-/

namespace TrafficSheet.FileTree

variable {t : FileTree} {l : Location} {bytes : Bytes}

/-- Reading keeps a tree as it is. -/
instance : LawfulFiles FileTree := ⟨fun _ _ => rfl⟩

/-- Whether a file can be written depends on its path only. -/
theorem writeIn_eq_ok_iff (path : String) (bytes : Bytes) :
    (Files.writeIn t path bytes).1 = .ok () ↔ ∃ l, t.target path = .ok l := by
  have hwritten : (Files.writeIn t path bytes).1 = (t.target path).map fun _ => () := by
    simp only [Files.writeIn, Files.write, write, StateT.run]
    cases t.target path <;> rfl
  rw [hwritten]
  cases t.target path with
  | ok l => exact iff_of_true rfl ⟨l, rfl⟩
  | error e => simp [Except.map]

/-- There is something else only where something was put. -/
theorem node?_put (hl : l ≠ []) (node : FileNode) (l' : Location) :
    (t.put l node).node? l' = if l' = l then some node else t.node? l' := by
  unfold node? put
  by_cases hroot : l' = []
  · subst hroot
    simp [Ne.symm hl]
  · rw [if_neg (mt List.isEmpty_iff.mp hroot), if_neg (mt List.isEmpty_iff.mp hroot)]
    by_cases hsame : l' = l
    · simp [hsame]
    · rw [if_neg hsame, List.lookup_cons, beq_false_of_ne hsame]
      -- What is left out is not at the other location.
      induction t.nodes with
      | nil => rfl
      | cons entry nodes ih =>
        obtain ⟨other, known⟩ := entry
        by_cases hother : other = l
        · subst hother
          rw [List.filter_cons_of_neg (by simp), List.lookup_cons, beq_false_of_ne hsame]
          exact ih
        · rw [List.filter_cons_of_pos (by simpa using hother), List.lookup_cons, List.lookup_cons]
          cases l' == other
          · exact ih
          · rfl

section Replaced

variable (hfile : t.node? l = some (.file bytes)) (other : Bytes)
include hfile

theorem ne_root : l ≠ [] := by
  rintro rfl
  simp [node?] at hfile

theorem node?_put_file (l' : Location) :
    (t.put l (.file other)).node? l' = if l' = l then some (.file other) else t.node? l' :=
  node?_put (ne_root hfile) _ l'

theorem step_put : (t.put l (.file other)).step = t.step := by
  funext l' name
  unfold step
  rw [node?_put_file hfile]
  by_cases hsame : l' = l
  · rw [if_pos hsame, hsame, hfile]
  · rw [if_neg hsame]

theorem follow_put (path : String) (names : List String) :
    (t.put l (.file other)).follow path names = t.follow path names := by
  unfold follow
  rw [step_put hfile]
  rfl

/-- **Paths** lead where they led. -/
theorem resolve_put (path : String) : (t.put l (.file other)).resolve path = t.resolve path :=
  follow_put hfile other path (names path)

/-- **Files can be written** where they could be. -/
theorem target_put (path : String) : (t.put l (.file other)).target path = t.target path := by
  unfold target
  rw [follow_put hfile]
  cases t.follow path (writtenNames path) with
  | error e => rfl
  | ok l' =>
    dsimp only
    rw [node?_put_file hfile]
    by_cases hsame : l' = l
    · rw [if_pos hsame, hsame, hfile]
      rfl
    · rw [if_neg hsame]

/-- **Reading** gives what it gave, but of the file itself. -/
theorem read_put_cases (path : String) :
    (t.put l (.file other)).read path = t.read path ∨
      t.read path = .ok bytes ∧ (t.put l (.file other)).read path = .ok other := by
  unfold read
  rw [resolve_put hfile]
  cases t.resolve path with
  | error e => exact Or.inl rfl
  | ok l' =>
    dsimp only
    rw [node?_put_file hfile]
    by_cases hsame : l' = l
    · rw [if_pos hsame, hsame, hfile]
      dsimp only
      split_ifs
      · exact Or.inl rfl
      · exact Or.inr ⟨rfl, rfl⟩
    · rw [if_neg hsame]
      exact Or.inl rfl

end Replaced

end TrafficSheet.FileTree
