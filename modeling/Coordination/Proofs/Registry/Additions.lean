import Coordination.Proofs.Registry.Reconcile
import Mathlib.Data.List.Forall2
import Mathlib.Data.List.Infix
/-!
# Reconciling only adds

Whatever roster meets whatever canonical list, the entries of the roster stay where they are and as
they are but for their ids, which are filled in or replaced and never lost.  Behind them stand the
canonical plugins that had no match when their turn came, so that every canonical plugin has one
afterwards.
-/

namespace Coordination

/-! ## Turns -/

section turns
variable {α : Type*}

/-- The elements of a list as they come up one after another, each with those before it. -/
def turns (l : List α) : List (List α × α) := l.inits.zip l

@[simp] theorem turns_nil : turns ([] : List α) = [] := rfl

theorem turns_cons (a : α) (l : List α) :
    turns (a :: l) = ([], a) :: (turns l).map fun turn => (a :: turn.1, turn.2) := by
  unfold turns
  rw [List.inits_cons, List.zip_cons_cons, List.zip_map_left]
  rfl

/-- The last element comes up after all others. -/
theorem turns_concat (l : List α) (a : α) : turns (l ++ [a]) = turns l ++ [(l, a)] := by
  induction l with
  | nil => rfl
  | cons b l ih =>
    rw [List.cons_append, turns_cons, turns_cons, ih, List.map_append]
    rfl

/-- An element comes up wherever the list can be split at it. -/
theorem mem_turns_iff {l before : List α} {a : α} :
    (before, a) ∈ turns l ↔ ∃ after, l = before ++ a :: after := by
  induction l generalizing before with
  | nil => simp
  | cons b l ih =>
    rw [turns_cons, List.mem_cons, List.mem_map]
    constructor
    · rintro (hfirst | ⟨⟨before', a'⟩, hmem, heq⟩)
      · cases hfirst
        exact ⟨l, rfl⟩
      · cases heq
        obtain ⟨after, rfl⟩ := ih.mp hmem
        exact ⟨after, rfl⟩
    · rintro ⟨after, heq⟩
      cases before with
      | nil =>
        cases heq
        exact .inl rfl
      | cons c before =>
        cases heq
        exact .inr ⟨(before, a), ih.mpr ⟨after, rfl⟩, rfl⟩

end turns

/-! ## What is kept -/

section pointwise
variable {α : Type*} {R : α → α → Prop}

theorem forall₂_trans {as bs cs : List α} (hfirst : List.Forall₂ R as bs)
    (hsecond : List.Forall₂ R bs cs) (htrans : ∀ a b c, R a b → R b c → R a c) :
    List.Forall₂ R as cs := by
  induction hfirst generalizing cs with
  | nil => exact hsecond
  | cons hab _ ih =>
    cases hsecond with
    | cons hbc hrest => exact .cons (htrans _ _ _ hab hbc) (ih hrest)

/-- A change in one place concerns this place alone. -/
theorem forall₂_modify (hrefl : ∀ a, R a a) {f : α → α} (hf : ∀ a, R a (f a)) (as : List α)
    (i : Nat) : List.Forall₂ R as (as.modify i f) := by
  induction as generalizing i with
  | nil =>
    rw [List.modify_nil]
    exact .nil
  | cons a as ih =>
    cases i with
    | zero => exact .cons (hf a) (List.forall₂_same.mpr fun b _ => hrefl b)
    | succ i => exact .cons (hrefl a) (ih i)

end pointwise

/-- What may become of a function: nothing but its id changes, and an id is not lost. -/
structure Function.Keeps (f g : Function) : Prop where
  outline : g.outline = f.outline
  id : f.id.isSome = true → g.id.isSome = true

theorem Function.Keeps.refl (f : Function) : f.Keeps f := ⟨rfl, fun h => h⟩

theorem Function.Keeps.trans {f g h : Function} (hfirst : f.Keeps g) (hsecond : g.Keeps h) :
    f.Keeps h :=
  ⟨hsecond.outline.trans hfirst.outline, fun hid => hsecond.id (hfirst.id hid)⟩

/-- What may become of a plugin: nothing but ids changes, its own and those of its functions, and
no id is lost. -/
structure Plugin.Keeps (p q : Plugin) : Prop where
  outline : q.outline = p.outline
  id : p.id.isSome = true → q.id.isSome = true
  functions : List.Forall₂ Function.Keeps p.functions q.functions

theorem Plugin.Keeps.refl (p : Plugin) : p.Keeps p :=
  ⟨rfl, fun h => h, List.forall₂_same.mpr fun f _ => .refl f⟩

theorem Plugin.Keeps.trans {p q r : Plugin} (hfirst : p.Keeps q) (hsecond : q.Keeps r) :
    p.Keeps r :=
  ⟨hsecond.outline.trans hfirst.outline, fun hid => hsecond.id (hfirst.id hid),
    forall₂_trans hfirst.functions hsecond.functions fun _ _ _ => Function.Keeps.trans⟩

namespace Registry

open Assignment

variable {ps canonical : List Plugin}

theorem keeps_setFunctionId (name id : String) (fs : List Function) :
    List.Forall₂ Function.Keeps fs (setFunctionId name id fs) := by
  induction fs with
  | nil => exact .nil
  | cons f fs ih =>
    unfold setFunctionId
    split
    · exact .cons ⟨rfl, fun _ => rfl⟩ (List.forall₂_same.mpr fun g _ => .refl g)
    · exact .cons (.refl f) ih

theorem keeps_assign (p : Plugin) (function : Option String) (id : String) :
    p.Keeps (p.assign function id) := by
  refine ⟨outline_assign p function id, ?_, ?_⟩
  · cases function with
    | none => exact fun _ => rfl
    | some name => exact fun hid => hid
  · cases function with
    | none => exact List.forall₂_same.mpr fun f _ => .refl f
    | some name => exact keeps_setFunctionId name id p.functions

theorem keeps_applyAll (ps : List Plugin) (as : List Assignment) :
    List.Forall₂ Plugin.Keeps ps (applyAll ps as) := by
  induction as generalizing ps with
  | nil => exact List.forall₂_same.mpr fun p _ => .refl p
  | cons a as ih =>
    have hfirst : List.Forall₂ Plugin.Keeps ps (apply ps a) :=
      forall₂_modify Plugin.Keeps.refl (fun p => keeps_assign p a.function a.id) ps a.place
    exact forall₂_trans hfirst (ih (apply ps a)) fun _ _ _ => Plugin.Keeps.trans

/-! ## What is added -/

/-- The canonical plugins that have no match in the roster when their turn comes. -/
def newcomers (ps canonical : List Plugin) : List Plugin :=
  ((turns canonical).filter fun turn =>
    (turn.2.positionIn? (reconcileAll ps turn.1).1).isNone).map Prod.snd

/-- The last canonical plugin meets the roster that the others have left. -/
theorem reconcileAll_concat (ps canonical : List Plugin) (remote : Plugin) :
    reconcileAll ps (canonical ++ [remote]) =
      let before := reconcileAll ps canonical
      ((reconcileOne before.1 remote).1, before.2.add (reconcileOne before.1 remote).2) := by
  induction canonical generalizing ps with
  | nil =>
    show ((reconcileOne ps remote).1, (reconcileOne ps remote).2.add {}) =
      ((reconcileOne ps remote).1, Reconciliation.add {} (reconcileOne ps remote).2)
    simp [Reconciliation.add]
  | cons first rest ih =>
    rw [List.cons_append, reconcileAll_cons, ih, reconcileAll_cons]
    simp [Reconciliation.add, Nat.add_assoc]

theorem newcomers_concat (ps canonical : List Plugin) (remote : Plugin) :
    newcomers ps (canonical ++ [remote]) = newcomers ps canonical ++
      if (remote.positionIn? (reconcileAll ps canonical).1).isNone then [remote] else [] := by
  unfold newcomers
  rw [turns_concat, List.filter_append, List.map_append, List.filter_singleton]
  cases remote.positionIn? (reconcileAll ps canonical).1 with
  | none => rfl
  | some i => rfl

/-- **What reconciling makes of a roster**: its entries and the newcomers behind them are kept. -/
theorem keeps_reconcileAll (ps canonical : List Plugin) :
    List.Forall₂ Plugin.Keeps (ps ++ newcomers ps canonical) (reconcileAll ps canonical).1 ∧
      (reconcileAll ps canonical).2.adopted = (newcomers ps canonical).length ∧
      (reconcileAll ps canonical).2.matched + (reconcileAll ps canonical).2.adopted =
        canonical.length := by
  -- the last canonical plugin assigns ids, or it is added behind all the others
  induction canonical using List.reverseRecOn with
  | nil =>
    refine ⟨?_, rfl, rfl⟩
    show List.Forall₂ Plugin.Keeps (ps ++ []) ps
    rw [List.append_nil]
    exact List.forall₂_same.mpr fun p _ => .refl p
  | append_singleton canonical remote ih =>
    obtain ⟨hkeeps, hadopted, hcount⟩ := ih
    have hlength : (canonical ++ [remote]).length = canonical.length + 1 := List.length_append
    rw [newcomers_concat, reconcileAll_concat, hlength]
    unfold Reconciliation.add
    cases hplace : remote.positionIn? (reconcileAll ps canonical).1 with
    | some i =>
      obtain ⟨hplugins, hmatched, hnone⟩ := reconcileOne_of_match hplace
      rw [← applyAll_assignments] at hplugins
      simp only [hplugins, hmatched, hnone, Option.isNone_some, Bool.false_eq_true, if_false,
        List.append_nil]
      refine ⟨?_, hadopted, by omega⟩
      exact forall₂_trans hkeeps (keeps_applyAll _ _) fun _ _ _ => Plugin.Keeps.trans
    | none =>
      simp only [reconcileOne_of_none hplace, Option.isNone_none, if_true]
      refine ⟨?_, ?_, by omega⟩
      · rw [← List.append_assoc]
        exact List.rel_append hkeeps (.cons (.refl remote) .nil)
      · rw [List.length_append, List.length_singleton, hadopted]

/-- **Reconciling only adds.**  The entries of the roster stay in their places and change ids alone,
of which none is lost.  Behind them are as many plugins as were adopted: in order, the canonical
plugins that had no match when their turn came, equal to them but for ids.  Each canonical plugin
was either matched or adopted, and has a match now.  The instances are not concerned. -/
theorem reconcile_only_adds (g : Registry) (canonical : List Plugin) :
    let g' := (g.reconcile canonical).1
    let outcome := (g.reconcile canonical).2
    (∃ old new, g'.plugins = old ++ new ∧
      List.Forall₂ Plugin.Keeps g.plugins old ∧
      List.Forall₂ Plugin.Keeps (newcomers g.plugins canonical) new) ∧
    g'.plugins.length = g.plugins.length + outcome.adopted ∧
    outcome.matched + outcome.adopted = canonical.length ∧
    (∀ remote ∈ canonical, (remote.positionIn? g'.plugins).isSome = true) ∧
    g'.instances = g.instances := by
  intro g' outcome
  obtain ⟨hkeeps, hadopted, hcount⟩ := keeps_reconcileAll g.plugins canonical
  have hlength : g'.plugins.length = g.plugins.length + outcome.adopted := by
    have hsame := hkeeps.length_eq
    rw [List.length_append, ← hadopted] at hsame
    exact hsame.symm
  refine ⟨?_, hlength, hcount, ?_, rfl⟩
  · refine ⟨g'.plugins.take g.plugins.length, g'.plugins.drop g.plugins.length,
      (List.take_append_drop _ _).symm, ?_, ?_⟩
    · have htake := List.forall₂_take g.plugins.length hkeeps
      rwa [List.take_left] at htake
    · have hdrop := List.forall₂_drop g.plugins.length hkeeps
      rwa [List.drop_left] at hdrop
  · exact fun remote hremote => isSome_positionIn?_reconcileAll g.plugins hremote

end Registry

end Coordination
