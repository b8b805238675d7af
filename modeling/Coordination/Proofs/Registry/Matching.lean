import Coordination.Registry
import Mathlib.Data.List.Basic
/-!
# Which plugin of a list is meant

A plugin means the first one of its unique name in a list, and where there is none the first one of
its display name.  So ids have no part in it, a list that grows at its end loses no match, and a
match stays where it is as long as no newcomer brings the same unique name.
-/

namespace Coordination

/-- The function without its id. -/
def Function.outline (f : Function) : Function := { f with id := none }

namespace Plugin

/-- The plugin without any ids. -/
def outline (p : Plugin) : Plugin :=
  { p with id := none, functions := p.functions.map Function.outline }

/-- Two plugins that do not go by the same unique name. -/
def Apart (p q : Plugin) : Prop := p.uniqueName = none ∨ q.uniqueName ≠ p.uniqueName

instance (p q : Plugin) : Decidable (p.Apart q) := by
  unfold Apart
  infer_instance

variable {p : Plugin} {ps qs : List Plugin} {i : Nat}

theorem indexOf?_eq_findIdx? (f : Plugin → Bool) (ps : List Plugin) :
    indexOf? f ps = ps.findIdx? f := by
  induction ps with
  | nil => rfl
  | cons q qs ih =>
    rw [List.findIdx?_cons, indexOf?, ih]

/-- The place of the first plugin of a unique name. -/
def uniquePlace? (p : Plugin) (ps : List Plugin) : Option Nat :=
  p.uniqueName.bind fun unique => ps.findIdx? fun q => q.uniqueName == some unique

/-- The unique name comes first, then the display name. -/
theorem positionIn?_eq (p : Plugin) (ps : List Plugin) :
    p.positionIn? ps = (p.uniquePlace? ps).or (ps.findIdx? fun q => q.name == p.name) := by
  unfold positionIn? uniquePlace?
  cases p.uniqueName with
  | none => exact indexOf?_eq_findIdx? _ ps
  | some unique =>
    rw [Option.bind_some]
    simp only [indexOf?_eq_findIdx?]
    cases ps.findIdx? fun q => q.uniqueName == some unique with
    | none => rfl
    | some i => rfl

theorem positionIn?_of_uniquePlace? (h : p.uniquePlace? ps = some i) :
    p.positionIn? ps = some i := by
  rw [positionIn?_eq, h, Option.some_or]

/-- The only plugin of the same unique name is the match. -/
theorem positionIn?_append_cons {before after : List Plugin} {q : Plugin}
    (hnamed : p.uniqueName ≠ none) (hsame : q.uniqueName = p.uniqueName)
    (hbefore : ∀ b ∈ before, b.uniqueName ≠ p.uniqueName) :
    p.positionIn? (before ++ q :: after) = some before.length := by
  apply positionIn?_of_uniquePlace?
  obtain ⟨unique, hunique⟩ := Option.ne_none_iff_exists'.mp hnamed
  have hnone : before.findIdx? (fun b => b.uniqueName == some unique) = none := by
    rw [List.findIdx?_eq_none_iff]
    intro b hb
    rw [beq_eq_false_iff_ne, ← hunique]
    exact hbefore b hb
  unfold uniquePlace?
  rw [hunique, Option.bind_some, List.findIdx?_append, hnone, List.findIdx?_cons, hsame, hunique]
  simp

/-- A plugin means nothing by unique name in a list in which nobody goes by it. -/
theorem uniquePlace?_eq_none_iff : p.uniquePlace? ps = none ↔ ∀ q ∈ ps, p.Apart q := by
  unfold uniquePlace? Apart
  cases hown : p.uniqueName with
  | none => exact iff_of_true rfl fun q _ => .inl rfl
  | some unique =>
    rw [Option.bind_some, List.findIdx?_eq_none_iff]
    simp only [beq_eq_false_iff_ne, Option.some_ne_none, false_or]

/-- A plugin means nothing in a list in which its names do not occur, and only there. -/
theorem positionIn?_eq_none_iff :
    p.positionIn? ps = none ↔ (∀ q ∈ ps, p.Apart q) ∧ ∀ q ∈ ps, q.name ≠ p.name := by
  rw [positionIn?_eq, Option.or_eq_none_iff, uniquePlace?_eq_none_iff, List.findIdx?_eq_none_iff]
  simp only [beq_eq_false_iff_ne]

theorem positionIn?_eq_none (hunique : ∀ q ∈ ps, q.uniqueName ≠ p.uniqueName)
    (hname : ∀ q ∈ ps, q.name ≠ p.name) : p.positionIn? ps = none :=
  positionIn?_eq_none_iff.mpr ⟨fun q hq => .inr (hunique q hq), hname⟩

/-- A display name that occurs is enough for a match. -/
theorem isSome_positionIn?_of_name {q : Plugin} (h : q ∈ ps) (hname : q.name = p.name) :
    (p.positionIn? ps).isSome = true := by
  rw [positionIn?_eq, Option.isSome_or, Bool.or_eq_true]
  right
  rw [List.findIdx?_isSome, List.any_eq_true]
  exact ⟨q, h, beq_iff_eq.mpr hname⟩

/-- A plugin of a list means some plugin of it. -/
theorem isSome_positionIn?_of_mem (h : p ∈ ps) : (p.positionIn? ps).isSome = true :=
  isSome_positionIn?_of_name h rfl

/-! ## Ids have no part in it -/

theorem positionIn?_map_outline (p : Plugin) (ps : List Plugin) :
    p.positionIn? (ps.map outline) = p.positionIn? ps := by
  rw [positionIn?_eq, positionIn?_eq]
  unfold uniquePlace?
  simp only [List.findIdx?_map]
  rfl

theorem uniquePlace?_congr (h : qs.map outline = ps.map outline) (p : Plugin) :
    p.uniquePlace? qs = p.uniquePlace? ps := by
  have hmap : ∀ ps : List Plugin, p.uniquePlace? (ps.map outline) = p.uniquePlace? ps := by
    intro ps
    unfold uniquePlace?
    simp only [List.findIdx?_map]
    rfl
  rw [← hmap qs, h, hmap]

theorem positionIn?_congr (h : qs.map outline = ps.map outline) (p : Plugin) :
    p.positionIn? qs = p.positionIn? ps := by
  rw [← positionIn?_map_outline, h, positionIn?_map_outline]

/-! ## Places -/

theorem lt_length_of_findIdx? {f : Plugin → Bool} (h : ps.findIdx? f = some i) :
    i < ps.length := by
  obtain ⟨hi, -⟩ := List.findIdx?_eq_some_iff_getElem.mp h
  exact hi

theorem lt_length_of_positionIn? (h : p.positionIn? ps = some i) : i < ps.length := by
  rw [positionIn?_eq, Option.or_eq_some_iff] at h
  rcases h with hunique | ⟨-, hname⟩
  · obtain ⟨unique, -, hfound⟩ := Option.bind_eq_some_iff.mp hunique
    exact lt_length_of_findIdx? hfound
  · exact lt_length_of_findIdx? hname

/-- What a plugin means by unique name has the same unique name. -/
theorem uniqueName_of_uniquePlace? (h : p.uniquePlace? ps = some i) {q : Plugin}
    (hq : ps[i]? = some q) : p.uniqueName ≠ none ∧ q.uniqueName = p.uniqueName := by
  obtain ⟨unique, hunique, hfound⟩ := Option.bind_eq_some_iff.mp h
  obtain ⟨hi, hname, -⟩ := List.findIdx?_eq_some_iff_getElem.mp hfound
  rw [List.getElem?_eq_getElem hi, Option.some_inj] at hq
  rw [hq, beq_iff_eq] at hname
  rw [hunique]
  exact ⟨Option.some_ne_none unique, hname⟩

/-- A match by unique name stays the match in a longer list. -/
theorem uniquePlace?_append (h : p.uniquePlace? ps = some i) (qs : List Plugin) :
    p.uniquePlace? (ps ++ qs) = some i := by
  obtain ⟨unique, hunique, hfound⟩ := Option.bind_eq_some_iff.mp h
  unfold uniquePlace?
  rw [hunique, Option.bind_some, List.findIdx?_append, hfound, Option.some_or]

/-- Newcomers under other unique names bring no match by unique name. -/
theorem uniquePlace?_append_of_apart (h : p.uniquePlace? ps = none)
    (hapart : ∀ q ∈ qs, p.Apart q) : p.uniquePlace? (ps ++ qs) = none := by
  unfold uniquePlace? at h ⊢
  cases hunique : p.uniqueName with
  | none => rfl
  | some unique =>
    rw [hunique, Option.bind_some] at h
    rw [Option.bind_some, List.findIdx?_append, h, Option.none_or, Option.map_eq_none_iff,
      List.findIdx?_eq_none_iff]
    intro q hq
    rcases hapart q hq with hnone | hne
    · rw [hunique] at hnone
      cases hnone
    · rw [beq_eq_false_iff_ne, ← hunique]
      exact hne

/-- A match stays where it is as long as no newcomer brings the same unique name. -/
theorem positionIn?_append_of_apart (h : p.positionIn? ps = some i)
    (hapart : ∀ q ∈ qs, p.Apart q) : p.positionIn? (ps ++ qs) = some i := by
  rw [positionIn?_eq, Option.or_eq_some_iff] at h ⊢
  rcases h with hunique | ⟨hnone, hname⟩
  · exact .inl (uniquePlace?_append hunique qs)
  · refine .inr ⟨uniquePlace?_append_of_apart hnone hapart, ?_⟩
    rw [List.findIdx?_append, hname, Option.some_or]

/-- In a longer list there still is a match. -/
theorem isSome_positionIn?_append (h : (p.positionIn? ps).isSome = true) (qs : List Plugin) :
    (p.positionIn? (ps ++ qs)).isSome = true := by
  rw [positionIn?_eq, Option.isSome_or, Bool.or_eq_true] at h ⊢
  rcases h with hunique | hname
  · obtain ⟨i, hi⟩ := Option.isSome_iff_exists.mp hunique
    rw [uniquePlace?_append hi]
    exact .inl rfl
  · obtain ⟨i, hi⟩ := Option.isSome_iff_exists.mp hname
    rw [List.findIdx?_append, hi]
    exact .inr rfl

/-- A plugin that was added for want of a match is its own match. -/
theorem positionIn?_append_self (h : p.positionIn? ps = none) :
    p.positionIn? (ps ++ [p]) = some ps.length := by
  rw [positionIn?_eq, Option.or_eq_none_iff] at h
  obtain ⟨hunique, hname⟩ := h
  rw [positionIn?_eq, Option.or_eq_some_iff]
  unfold uniquePlace? at hunique ⊢
  cases hown : p.uniqueName with
  | none =>
    refine .inr ⟨rfl, ?_⟩
    rw [List.findIdx?_append, hname, List.findIdx?_singleton]
    simp
  | some unique =>
    rw [hown, Option.bind_some] at hunique
    rw [Option.bind_some, List.findIdx?_append, hunique, List.findIdx?_singleton]
    simp [hown]

end Plugin

end Coordination
