import Coordination.Proofs.Registry.Additions
import Mathlib.Data.List.Nodup
/-!
# Plugins and instances of a registry

A registry keeps its plugins in a list and its instances in a table under unique names.  Whatever is
registered and reconciled, in whatever order, the two fit together: no unique name stands twice in
the list, each key of the table is one of them, and the instance that is found for a type is the one
that was registered for it.  Types may have descriptions with the same unique name; then the first
one to be registered has it, and the others are refused.
-/

namespace Coordination

/-- In a table without repeated keys, what is found under a key is what stands there. -/
theorem lookup_eq_some_iff_mem {β : Type*} {table : List (String × β)}
    (hkeys : (table.map Prod.fst).Nodup) {key : String} {b : β} :
    table.lookup key = some b ↔ (key, b) ∈ table := by
  induction table with
  | nil => simp
  | cons entry table ih =>
    obtain ⟨hfirst, hrest⟩ := List.nodup_cons.mp hkeys
    obtain ⟨other, c⟩ := entry
    rw [List.lookup_cons, List.mem_cons]
    by_cases hkey : key = other
    · subst hkey
      have hnot : (key, b) ∉ table := fun hmem => hfirst (List.mem_map.mpr ⟨_, hmem, rfl⟩)
      simp [hnot, eq_comm]
    · have hne : (key == other) = false := beq_false_of_ne hkey
      rw [hne, ih hrest]
      simp [hkey]

namespace Registry

/-! ## Operations -/

/-- What is to be registered.  A capability is given by its type. -/
inductive Registration where
  /-- A capability together with the instance that serves it. -/
  | served (typeName tag : String)
  /-- A capability by its type alone. -/
  | unserved (typeName : String)
  /-- A plugin described while running. -/
  | described (d : PluginDescriptor)

inductive Operation where
  | register (r : Registration)
  | reconcile (canonical : List Plugin)

section operations
-- each type of capabilities describes itself, always in the same way
variable (describe : String → PluginDescriptor)

def capability (typeName : String) : Capability := ⟨typeName, describe typeName⟩

namespace Registration

def plugin : Registration → Plugin
  | served typeName _ => (capability describe typeName).toPlugin
  | unserved typeName => (capability describe typeName).toPlugin
  | described d => d.toPlugin d.name

/-- The unique name under which it is to be registered: the one that is given, otherwise the name of
the type, or the display name of what has no type. -/
def uniqueName : Registration → String
  | served typeName _ => (describe typeName).uniqueName.getD typeName
  | unserved typeName => (describe typeName).uniqueName.getD typeName
  | described d => d.uniqueName.getD d.name

/-- The instance that is to be registered, under its unique name. -/
def entries : Registration → List (String × Instance)
  | served typeName tag => [((describe typeName).uniqueName.getD typeName, ⟨typeName, tag⟩)]
  | _ => []

theorem uniqueName_plugin (r : Registration) :
    (r.plugin describe).uniqueName = some (r.uniqueName describe) := by
  cases r <;> rfl

/-- At most one instance is registered at a time. -/
theorem entries_cases (r : Registration) : r.entries describe = [] ∨
    ∃ i, r.entries describe = [(r.uniqueName describe, i)] ∧
      r.uniqueName describe = (capability describe i.typeName).uniqueName := by
  cases r with
  | served typeName tag => exact .inr ⟨⟨typeName, tag⟩, rfl, rfl⟩
  | unserved typeName => exact .inl rfl
  | described d => exact .inl rfl

end Registration

/-- Registers something, unless its unique name is taken. -/
def register (g : Registry) : Registration → Except Error Registry
  | .served typeName tag => g.addInstance (capability describe typeName) tag
  | .unserved typeName => g.addType (capability describe typeName)
  | .described d => g.addDescriptor d

/-- The registry after an operation; a refused registration leaves it as it is. -/
def perform (g : Registry) : Operation → Registry
  | .register r => match register describe g r with
    | .ok g' => g'
    | .error _ => g
  | .reconcile canonical => (g.reconcile canonical).1

/-- The registry after operations on an empty one. -/
def run (ops : List Operation) : Registry := ops.foldl (perform describe) {}

theorem run_concat (ops : List Operation) (op : Operation) :
    run describe (ops ++ [op]) = perform describe (run describe ops) op := by
  unfold run
  rw [List.foldl_append]
  rfl

/-- In a run, an instance was registered for a type. -/
def Served (ops : List Operation) (typeName tag : String) : Prop :=
  ∃ before after, ops = before ++ .register (.served typeName tag) :: after ∧
    (register describe (run describe before) (.served typeName tag)).isOk = true

end operations

def uniqueNames (g : Registry) : List String := g.plugins.filterMap Plugin.uniqueName

variable {describe : String → PluginDescriptor} {g : Registry} {ops : List Operation}

/-! ## Registering -/

theorem plugin?_eq_none_iff {unique : String} :
    g.plugin? unique = none ↔ unique ∉ g.uniqueNames := by
  unfold plugin? uniqueNames
  simp [List.find?_eq_none]

/-- A plugin is put at the end of the list unless its unique name is taken. -/
theorem insert_cases (g : Registry) {p : Plugin} {unique : String}
    (hunique : p.uniqueName = some unique) :
    (unique ∈ g.uniqueNames ∧ g.insert p = .error (.duplicateCapability unique)) ∨
    (unique ∉ g.uniqueNames ∧ g.insert p = .ok { g with plugins := g.plugins ++ [p] }) := by
  have hkey : key p = unique := by
    unfold key
    rw [hunique, Option.getD_some]
  unfold insert
  rw [hkey]
  cases htaken : g.plugin? unique with
  | none => exact .inr ⟨plugin?_eq_none_iff.mp htaken, rfl⟩
  | some q =>
    have hmem : unique ∈ g.uniqueNames := by
      by_contra hfree
      rw [plugin?_eq_none_iff.mpr hfree] at htaken
      cases htaken
    exact .inl ⟨hmem, rfl⟩

/-- **Registering ends in one of two ways**: the unique name is taken, or the plugin stands at the
end of the list and the instance, if there is one, in the table. -/
theorem register_cases (describe : String → PluginDescriptor) (g : Registry) (r : Registration) :
    (r.uniqueName describe ∈ g.uniqueNames ∧
      register describe g r = .error (.duplicateCapability (r.uniqueName describe))) ∨
    (r.uniqueName describe ∉ g.uniqueNames ∧ register describe g r =
      .ok ⟨g.plugins ++ [r.plugin describe], r.entries describe ++ g.instances⟩) := by
  have hinsert := g.insert_cases (r.uniqueName_plugin describe)
  -- of the three ways to register, only the first hands in an instance
  cases r with
  | served typeName tag =>
    rcases hinsert with ⟨htaken, herror⟩ | ⟨hfree, hok⟩
    · refine .inl ⟨htaken, ?_⟩
      show g.addInstance (capability describe typeName) tag = _
      unfold addInstance
      rw [show g.insert (capability describe typeName).toPlugin = _ from herror]
      rfl
    · refine .inr ⟨hfree, ?_⟩
      show g.addInstance (capability describe typeName) tag = _
      unfold addInstance
      rw [show g.insert (capability describe typeName).toPlugin = _ from hok]
      rfl
  | unserved typeName => exact hinsert
  | described d => exact hinsert

/-- What registering makes of a registry. -/
theorem perform_register (describe : String → PluginDescriptor) (g : Registry) (r : Registration) :
    perform describe g (.register r) = if r.uniqueName describe ∈ g.uniqueNames then g
      else ⟨g.plugins ++ [r.plugin describe], r.entries describe ++ g.instances⟩ := by
  unfold perform
  rcases register_cases describe g r with ⟨htaken, herror⟩ | ⟨hfree, hok⟩
  · simp only [herror, if_pos htaken]
  · simp only [hok, if_neg hfree]

/-! ## Reconciling -/

/-- The unique names are those of the plugins without their ids. -/
theorem filterMap_uniqueName_congr {ps qs : List Plugin}
    (h : qs.map Plugin.outline = ps.map Plugin.outline) :
    qs.filterMap Plugin.uniqueName = ps.filterMap Plugin.uniqueName := by
  have hmap : ∀ ps : List Plugin,
      (ps.map Plugin.outline).filterMap Plugin.uniqueName = ps.filterMap Plugin.uniqueName := by
    intro ps
    rw [List.filterMap_map]
    rfl
  rw [← hmap qs, h, hmap]

/-- A canonical plugin is adopted only if its unique name is free. -/
theorem filterMap_uniqueName_reconcileOne {ps : List Plugin} (remote : Plugin)
    (h : (ps.filterMap Plugin.uniqueName).Nodup) :
    (ps.filterMap Plugin.uniqueName) <+:
        ((reconcileOne ps remote).1.filterMap Plugin.uniqueName) ∧
      ((reconcileOne ps remote).1.filterMap Plugin.uniqueName).Nodup := by
  cases hplace : remote.positionIn? ps with
  | some i =>
    have hsame : (reconcileOne ps remote).1.map Plugin.outline = ps.map Plugin.outline := by
      rw [(reconcileOne_of_match hplace).1, ← applyAll_assignments, Assignment.map_outline_applyAll]
    rw [filterMap_uniqueName_congr hsame]
    exact ⟨List.prefix_rfl, h⟩
  | none =>
    obtain ⟨hapart, -⟩ := Plugin.positionIn?_eq_none_iff.mp hplace
    rw [reconcileOne_of_none hplace, List.filterMap_append]
    refine ⟨List.prefix_append _ _, ?_⟩
    cases hunique : remote.uniqueName with
    | none => simpa [hunique] using h
    | some unique =>
      -- a plugin without a match shares its unique name with nobody
      have hnew : unique ∉ ps.filterMap Plugin.uniqueName := by
        intro hmem
        obtain ⟨q, hq, hname⟩ := List.mem_filterMap.mp hmem
        rcases hapart q hq with hnone | hne
        · exact nomatch hunique.symm.trans hnone
        · exact hne (hname.trans hunique.symm)
      have hlast : [remote].filterMap Plugin.uniqueName = [unique] := by simp [hunique]
      rw [hlast, ← List.concat_eq_append]
      exact h.concat hnew

theorem filterMap_uniqueName_reconcileAll {ps : List Plugin} (canonical : List Plugin)
    (h : (ps.filterMap Plugin.uniqueName).Nodup) :
    (ps.filterMap Plugin.uniqueName) <+:
        ((reconcileAll ps canonical).1.filterMap Plugin.uniqueName) ∧
      ((reconcileAll ps canonical).1.filterMap Plugin.uniqueName).Nodup := by
  induction canonical generalizing ps with
  | nil => exact ⟨List.prefix_rfl, h⟩
  | cons remote rest ih =>
    obtain ⟨hbegins, hnodup⟩ := filterMap_uniqueName_reconcileOne remote h
    obtain ⟨hbegins', hnodup'⟩ := ih hnodup
    exact ⟨hbegins.trans hbegins', hnodup'⟩

/-! ## Runs -/

/-- The plugins of a registry and its instances fit together. -/
structure Coherent (describe : String → PluginDescriptor) (g : Registry) : Prop where
  /-- No unique name stands twice in the list. -/
  nodup : g.uniqueNames.Nodup
  /-- Each instance stands under a unique name of the list, -/
  named : ∀ entry ∈ g.instances, entry.1 ∈ g.uniqueNames
  /-- which is that of its type, -/
  own : ∀ entry ∈ g.instances, entry.1 = (capability describe entry.2.typeName).uniqueName
  /-- and no two stand under one. -/
  keys : (g.instances.map Prod.fst).Nodup

theorem coherent_empty (describe : String → PluginDescriptor) : Coherent describe {} :=
  ⟨List.nodup_nil, fun _ h => absurd h List.not_mem_nil, fun _ h => absurd h List.not_mem_nil,
    List.nodup_nil⟩

theorem uniqueNames_append (g : Registry) (p : Plugin) (entries : List (String × Instance)) :
    uniqueNames ⟨g.plugins ++ [p], entries⟩ = g.uniqueNames ++ p.uniqueName.toList := by
  unfold uniqueNames
  rw [List.filterMap_append]
  cases hunique : p.uniqueName with
  | none => simp [hunique]
  | some unique => simp [hunique]

theorem Coherent.perform (h : Coherent describe g) (op : Operation) :
    Coherent describe (perform describe g op) := by
  cases op with
  | register r =>
    rw [perform_register]
    by_cases htaken : r.uniqueName describe ∈ g.uniqueNames
    · rwa [if_pos htaken]
    · rw [if_neg htaken]
      have hnames (entries : List (String × Instance)) :
          uniqueNames ⟨g.plugins ++ [r.plugin describe], entries⟩ =
            g.uniqueNames ++ [r.uniqueName describe] := by
        rw [uniqueNames_append, r.uniqueName_plugin, Option.toList_some]
      have hnodup : (g.uniqueNames ++ [r.uniqueName describe]).Nodup := by
        rw [← List.concat_eq_append]
        exact h.nodup.concat htaken
      have hnamed : ∀ entry ∈ g.instances,
          entry.1 ∈ g.uniqueNames ++ [r.uniqueName describe] :=
        fun entry hentry => List.mem_append_left _ (h.named entry hentry)
      rcases r.entries_cases describe with hnone | ⟨i, hone, hown⟩
      · rw [hnone, List.nil_append]
        exact ⟨by rwa [hnames], by rwa [hnames], h.own, h.keys⟩
      · -- the new instance stands under the name that was free
        rw [hone, List.singleton_append]
        refine ⟨by rwa [hnames], ?_, ?_, ?_⟩
        · rw [hnames]
          refine List.forall_mem_cons.mpr ⟨?_, hnamed⟩
          exact List.mem_append_right _ (List.mem_singleton_self _)
        · exact List.forall_mem_cons.mpr ⟨hown, h.own⟩
        · refine List.nodup_cons.mpr ⟨?_, h.keys⟩
          intro hmem
          obtain ⟨entry, hentry, hkey⟩ := List.mem_map.mp hmem
          have hname : entry.1 = r.uniqueName describe := hkey
          exact htaken (hname ▸ h.named entry hentry)
  | reconcile canonical =>
    obtain ⟨hbegins, hnodup⟩ := filterMap_uniqueName_reconcileAll canonical h.nodup
    exact ⟨hnodup, fun entry hentry => hbegins.subset (h.named entry hentry), h.own, h.keys⟩

theorem coherent_run (describe : String → PluginDescriptor) (ops : List Operation) :
    Coherent describe (run describe ops) := by
  induction ops using List.reverseRecOn with
  | nil => exact coherent_empty describe
  | append_singleton ops op ih =>
    rw [run_concat]
    exact ih.perform op

/-! ## Instances -/

/-- The instance that is found for a type is the one of this type in the table. -/
theorem Coherent.instance?_eq_some_iff (h : Coherent describe g) {typeName : String}
    {i : Instance} : g.instance? (capability describe typeName) = some i ↔
      i.typeName = typeName ∧ ((capability describe typeName).uniqueName, i) ∈ g.instances := by
  rw [← lookup_eq_some_iff_mem h.keys]
  unfold instance?
  cases g.instances.lookup (capability describe typeName).uniqueName with
  | none => simp
  | some j =>
    show (if j.typeName = typeName then some j else none) = some i ↔ _
    rw [Option.some_inj]
    -- what is found under the name may still be of another type
    split
    · next hj =>
      rw [Option.some_inj]
      exact ⟨fun heq => ⟨heq ▸ hj, heq⟩, fun hboth => hboth.2⟩
    · next hj =>
      refine iff_of_false (nomatch ·) ?_
      rintro ⟨hi, rfl⟩
      exact hj hi

theorem isOk_register_iff {r : Registration} : (register describe g r).isOk = true ↔
    r.uniqueName describe ∉ g.uniqueNames := by
  rcases register_cases describe g r with ⟨htaken, herror⟩ | ⟨hfree, hok⟩
  · rw [herror]
    exact iff_of_false Bool.false_ne_true (not_not_intro htaken)
  · rw [hok]
    exact iff_of_true rfl hfree

/-- Registering an instance is the last thing that happens, or it happened before. -/
theorem served_concat (describe : String → PluginDescriptor) (ops : List Operation)
    (op : Operation) (typeName tag : String) : Served describe (ops ++ [op]) typeName tag ↔
      Served describe ops typeName tag ∨ op = .register (.served typeName tag) ∧
        (capability describe typeName).uniqueName ∉ (run describe ops).uniqueNames := by
  -- whether a registration succeeds depends only on the names taken before it
  have hturns : ∀ ops, Served describe ops typeName tag ↔
      ∃ before, (before, .register (.served typeName tag)) ∈ turns ops ∧
        (capability describe typeName).uniqueName ∉ (run describe before).uniqueNames := by
    intro ops
    unfold Served
    simp only [mem_turns_iff, isOk_register_iff, exists_and_right]
    rfl
  rw [hturns, hturns]
  simp only [turns_concat, List.mem_append, List.mem_singleton]
  constructor
  · rintro ⟨before, hbefore | heq, hfree⟩
    · exact .inl ⟨before, hbefore, hfree⟩
    · cases heq
      exact .inr ⟨rfl, hfree⟩
  · rintro (⟨before, hbefore, hfree⟩ | ⟨rfl, hfree⟩)
    · exact ⟨before, .inl hbefore, hfree⟩
    · exact ⟨ops, .inr rfl, hfree⟩

theorem mem_entries_iff {r : Registration} {typeName tag : String} :
    ((capability describe typeName).uniqueName, ⟨typeName, tag⟩) ∈ r.entries describe ↔
      r = .served typeName tag := by
  cases r with
  | served typeName' tag' =>
    unfold Registration.entries
    rw [List.mem_singleton]
    constructor
    · intro heq
      obtain ⟨rfl, rfl⟩ := Instance.mk.inj (Prod.mk.inj heq).2
      rfl
    · intro heq
      cases heq
      rfl
  | unserved typeName' => exact iff_of_false List.not_mem_nil (nomatch ·)
  | described d => exact iff_of_false List.not_mem_nil (nomatch ·)

/-- An instance stands in the table just if it was registered. -/
theorem mem_instances_run_iff (describe : String → PluginDescriptor) (ops : List Operation)
    (typeName tag : String) :
    ((capability describe typeName).uniqueName, ⟨typeName, tag⟩) ∈ (run describe ops).instances ↔
      Served describe ops typeName tag := by
  -- the last operation registers the instance, or it was registered before
  induction ops using List.reverseRecOn with
  | nil =>
    refine iff_of_false List.not_mem_nil ?_
    rintro ⟨before, after, heq, -⟩
    exact List.append_ne_nil_of_right_ne_nil before (List.cons_ne_nil _ after) heq.symm
  | append_singleton ops op ih =>
    rw [run_concat, served_concat, ← ih]
    cases op with
    | register r =>
      rw [perform_register]
      by_cases htaken : r.uniqueName describe ∈ (run describe ops).uniqueNames
      · -- what is refused is not registered
        rw [if_pos htaken]
        refine (or_iff_left ?_).symm
        rintro ⟨heq, hfree⟩
        cases heq
        exact hfree htaken
      · rw [if_neg htaken, List.mem_append, mem_entries_iff, or_comm]
        refine or_congr_right ⟨?_, ?_⟩
        · rintro rfl
          exact ⟨rfl, htaken⟩
        · rintro ⟨heq, -⟩
          cases heq
          rfl
    | reconcile canonical => exact (or_iff_left fun ⟨heq, _⟩ => nomatch heq).symm

/-- **What a registry holds after any run** of registrations and reconciliations.  No unique name
stands twice in the list, and each instance stands under one of them.  The instance of a type is
the very one that was registered for it, and there is one only if this was done.  A registration
fails, as a duplicate, just if its unique name is in the list; then nothing changes, and otherwise
the new plugin stands at the end. -/
theorem run_fits_together (describe : String → PluginDescriptor) (ops : List Operation) :
    let g := run describe ops
    g.uniqueNames.Nodup ∧
    (∀ entry ∈ g.instances, entry.1 ∈ g.uniqueNames) ∧
    (∀ typeName i, g.instance? (capability describe typeName) = some i ↔
      ∃ tag, i = ⟨typeName, tag⟩ ∧ Served describe ops typeName tag) ∧
    ∀ r : Registration,
      (r.uniqueName describe ∈ g.uniqueNames ↔
        register describe g r = .error (.duplicateCapability (r.uniqueName describe))) ∧
      (∀ e, register describe g r = .error e →
        e = .duplicateCapability (r.uniqueName describe) ∧ perform describe g (.register r) = g) ∧
      (∀ g', register describe g r = .ok g' → g'.plugins = g.plugins ++ [r.plugin describe]) := by
  intro g
  have hg : Coherent describe g := coherent_run describe ops
  refine ⟨hg.nodup, hg.named, ?_, ?_⟩
  · intro typeName i
    rw [hg.instance?_eq_some_iff]
    constructor
    · rintro ⟨rfl, hmem⟩
      exact ⟨i.tag, rfl, (mem_instances_run_iff describe ops i.typeName i.tag).mp hmem⟩
    · rintro ⟨tag, rfl, hserved⟩
      exact ⟨rfl, (mem_instances_run_iff describe ops typeName tag).mpr hserved⟩
  · intro r
    rcases register_cases describe g r with ⟨htaken, herror⟩ | ⟨hfree, hok⟩
    · rw [perform_register, if_pos htaken, herror]
      refine ⟨iff_of_true htaken rfl, fun e he => ?_, fun g' hg' => ?_⟩
      · cases he
        exact ⟨rfl, rfl⟩
      · cases hg'
    · rw [hok]
      refine ⟨iff_of_false hfree fun h => ?_, fun e he => ?_, fun g' hg' => ?_⟩
      · cases h
      · cases he
      · cases hg'
        rfl

/-- Of two types with one unique name the first one has it. -/
example :
    let describe : String → PluginDescriptor :=
      fun _ => { name := "Lamp", uniqueName := some "lamp" }
    let g := run describe [.register (.served "a.Lamp" "one"), .register (.served "b.Lamp" "two")]
    g.instance? (capability describe "a.Lamp") = some ⟨"a.Lamp", "one"⟩ ∧
      g.instance? (capability describe "b.Lamp") = none := by
  decide

end Registry

end Coordination
