import Coordination.Proofs.Registry.Reconcile
import Mathlib.Data.List.Nodup
/-!
# Rosters built by registration

Registration refuses a unique name that is taken, so every plugin of a roster that was built by it
has a unique name of its own.  A roster in which all names are distinct takes over a canonical copy
of itself as a whole: every plugin finds its copy, every function finds its own, and afterwards
roster and copy are equal.
-/

namespace Coordination

/-! ## Distinct names -/

/-- A list in which every plugin has a unique name, no two plugins share a unique name or a display
name, and no two functions of a plugin share a name. -/
structure Plugin.Distinct (ps : List Plugin) : Prop where
  named : ∀ p ∈ ps, p.uniqueName ≠ none
  uniqueNames : (ps.map Plugin.uniqueName).Nodup
  names : (ps.map Plugin.name).Nodup
  functions : ∀ p ∈ ps, (p.functions.map Function.name).Nodup

/-- A plugin that has an id, and whose functions have theirs. -/
def Plugin.Resolved (p : Plugin) : Prop :=
  p.id.isSome = true ∧ ∀ f ∈ p.functions, f.id.isSome = true

/-- Ids do not matter to names. -/
theorem Plugin.Distinct.congr {ps qs : List Plugin} (h : Plugin.Distinct ps)
    (houtline : qs.map Plugin.outline = ps.map Plugin.outline) : Plugin.Distinct qs := by
  -- whatever does not read ids is the same for plugins of one outline
  have hmap : ∀ {β : Type} (f : Plugin → β), (∀ p : Plugin, f p.outline = f p) →
      qs.map f = ps.map f := by
    intro β f hf
    have hcomp : f ∘ Plugin.outline = f := funext hf
    rw [← hcomp, ← List.map_map, houtline, List.map_map]
  have huniqueNames : qs.map Plugin.uniqueName = ps.map Plugin.uniqueName := hmap _ fun _ => rfl
  have hnames : qs.map Plugin.name = ps.map Plugin.name := hmap _ fun _ => rfl
  have hfunctions : qs.map (fun p => p.functions.map Function.name) =
      ps.map fun p => p.functions.map Function.name := by
    apply hmap
    intro p
    unfold Plugin.outline
    rw [List.map_map]
    rfl
  constructor
  · intro q hq hnone
    have hmem : none ∈ ps.map Plugin.uniqueName := by
      rw [← huniqueNames, ← hnone]
      exact List.mem_map_of_mem hq
    obtain ⟨p, hp, hpnone⟩ := List.mem_map.mp hmem
    exact h.named p hp hpnone
  · exact huniqueNames ▸ h.uniqueNames
  · exact hnames ▸ h.names
  · intro q hq
    have hmem : q.functions.map Function.name ∈
        ps.map fun p => p.functions.map Function.name := by
      rw [← hfunctions]
      exact List.mem_map_of_mem (f := fun p : Plugin => p.functions.map Function.name) hq
    obtain ⟨p, hp, heq⟩ := List.mem_map.mp hmem
    exact heq ▸ h.functions p hp

namespace Registry

variable {g g' : Registry} {p : Plugin} {ps canonical : List Plugin}

/-! ## Registration -/

/-- The registries that are built by registration. -/
inductive Registered : Registry → Prop where
  | empty : Registered {}
  | descriptor {g g' : Registry} {d : PluginDescriptor} :
      Registered g → g.addDescriptor d = .ok g' → Registered g'
  | type {g g' : Registry} {c : Capability} :
      Registered g → g.addType c = .ok g' → Registered g'
  | served {g g' : Registry} {c : Capability} {tag : String} :
      Registered g → g.addInstance c tag = .ok g' → Registered g'

/-- A plugin is registered at the end, and only if its unique name is free. -/
theorem insert_eq_ok_iff :
    g.insert p = .ok g' ↔
      g.plugin? (key p) = none ∧ g' = { g with plugins := g.plugins ++ [p] } := by
  unfold insert
  cases g.plugin? (key p) with
  | none => simp [eq_comm]
  | some q => simp

/-- A description gives a plugin with a unique name, under which it is registered. -/
theorem uniqueName_toPlugin (d : PluginDescriptor) (fallback : String) :
    (d.toPlugin fallback).uniqueName = some (key (d.toPlugin fallback)) := rfl

/-- Each registration adds one plugin with a new unique name. -/
theorem Registered.uniqueNames (h : Registered g) :
    (∀ p ∈ g.plugins, p.uniqueName ≠ none) ∧ (g.plugins.map Plugin.uniqueName).Nodup := by
  have hadded : ∀ {g g' : Registry} (d : PluginDescriptor) (fallback : String),
      ((∀ p ∈ g.plugins, p.uniqueName ≠ none) ∧ (g.plugins.map Plugin.uniqueName).Nodup) →
      g.insert (d.toPlugin fallback) = .ok g' →
      (∀ p ∈ g'.plugins, p.uniqueName ≠ none) ∧ (g'.plugins.map Plugin.uniqueName).Nodup := by
    intro g g' d fallback ih hinsert
    obtain ⟨hnew, rfl⟩ := insert_eq_ok_iff.mp hinsert
    have hfree : ∀ p ∈ g.plugins, p.uniqueName ≠ (d.toPlugin fallback).uniqueName := by
      intro p hp heq
      have hne := List.find?_eq_none.mp hnew p hp
      rw [beq_iff_eq] at hne
      exact hne (heq.trans (uniqueName_toPlugin d fallback))
    refine ⟨?_, ?_⟩
    · intro p hp
      rcases List.mem_append.mp hp with hold | hlast
      · exact ih.1 p hold
      · rw [List.mem_singleton.mp hlast, uniqueName_toPlugin]
        exact Option.some_ne_none _
    · rw [List.map_append, List.nodup_append]
      refine ⟨ih.2, List.nodup_singleton _, ?_⟩
      intro unique hold unique' hlast heq
      obtain ⟨p, hp, rfl⟩ := List.mem_map.mp hold
      rw [List.map_singleton, List.mem_singleton] at hlast
      exact hfree p hp (heq.trans hlast)
  induction h with
  | empty => exact ⟨fun p hp => absurd hp List.not_mem_nil, List.nodup_nil⟩
  | descriptor _ hstep ih => exact hadded _ _ ih hstep
  | type _ hstep ih => exact hadded _ _ ih hstep
  | @served g g' c tag _ hstep ih =>
    unfold addInstance at hstep
    cases hinsert : g.insert c.toPlugin with
    | error e =>
      rw [hinsert] at hstep
      cases hstep
    | ok g₁ =>
      rw [hinsert] at hstep
      cases hstep
      -- the instance that is kept beside changes nothing about the plugins
      have hplugins := hadded c.descriptor c.typeName ih hinsert
      exact hplugins

/-! ## Taking over a copy -/

/-- The only function of a name gets the id. -/
theorem setFunctionId_append_cons {name id : String} {f : Function} {before after : List Function}
    (hbefore : ∀ b ∈ before, b.name ≠ name) (hf : f.name = name) :
    setFunctionId name id (before ++ f :: after) =
      before ++ { f with id := some id } :: after := by
  induction before with
  | nil => exact if_pos hf
  | cons b before ih =>
    have hne : b.name ≠ name := hbefore b List.mem_cons_self
    rw [List.cons_append, setFunctionId, if_neg hne,
      ih fun c hc => hbefore c (List.mem_cons_of_mem b hc)]
    rfl

/-- Functions that differ in ids alone take over all of them. -/
theorem resolveFunctions_of_map_eq (before : List Function) {fs remotes : List Function}
    (hsame : fs.map Function.outline = remotes.map Function.outline)
    (hnames : ((before ++ remotes).map Function.name).Nodup)
    (hids : ∀ f ∈ remotes, f.id.isSome = true) :
    (resolveFunctions (before ++ fs) remotes).1 = before ++ remotes := by
  -- the functions in front have their ids already, and one more moves there in each round
  induction remotes generalizing before fs with
  | nil =>
    rw [List.map_eq_nil_iff.mp hsame]
    rfl
  | cons remote remotes ih =>
    obtain ⟨f, fs', rfl, hf, hrest⟩ := List.map_eq_cons_iff.mp hsame
    obtain ⟨id, hid⟩ := Option.isSome_iff_exists.mp (hids remote List.mem_cons_self)
    have hname : f.outline.name = remote.outline.name := by rw [hf]
    have hname : f.name = remote.name := hname
    have hremote : { f.outline with id := some id } = remote := by
      rw [hf, ← hid]
      rfl
    have hremote : { f with id := some id } = remote := hremote
    have hbefore : ∀ b ∈ before, b.name ≠ remote.name := by
      intro b hb heq
      rw [List.map_append, List.nodup_append] at hnames
      exact hnames.2.2 b.name (List.mem_map_of_mem hb) remote.name
        (List.mem_map_of_mem List.mem_cons_self) heq
    have hstep : setFunctionId remote.name id (before ++ f :: fs') =
        before ++ [remote] ++ fs' := by
      rw [setFunctionId_append_cons hbefore hname, hremote, List.append_assoc]
      rfl
    have hany : ((before ++ f :: fs').any fun g => g.name == remote.name) = true := by
      simp [hname]
    have hmove : before ++ remote :: remotes = before ++ [remote] ++ remotes := by
      rw [List.append_assoc]
      rfl
    rw [hmove] at hnames ⊢
    simp only [resolveFunctions, hid, hany, if_true, hstep]
    exact ih (before ++ [remote]) hrest hnames fun g hg => hids g (List.mem_cons_of_mem remote hg)

/-- A plugin that differs from a resolved one in ids alone becomes equal to it. -/
theorem resolvePlugin_of_outline {here remote : Plugin} (hsame : here.outline = remote.outline)
    (hnames : (remote.functions.map Function.name).Nodup) (hremote : remote.Resolved) :
    (resolvePlugin here remote).1 = remote := by
  obtain ⟨id, hid⟩ := Option.isSome_iff_exists.mp hremote.1
  have hfunctions : (resolveFunctions here.functions remote.functions).1 = remote.functions :=
    resolveFunctions_of_map_eq [] (congrArg Plugin.functions hsame) hnames hremote.2
  have hrest : ({ here with id := remote.id, functions := remote.functions } : Plugin) = remote :=
    congrArg (fun p : Plugin => { p with id := remote.id, functions := remote.functions }) hsame
  unfold resolvePlugin
  show ({ here with id := remote.id.or here.id, functions := _ } : Plugin) = remote
  rw [hfunctions, hid, Option.some_or, ← hid]
  exact hrest

/-- Plugins that differ from resolved ones in ids alone become equal to them. -/
theorem reconcileAll_of_outline (before : List Plugin)
    (hsame : ps.map Plugin.outline = canonical.map Plugin.outline)
    (hnamed : ∀ p ∈ canonical, p.uniqueName ≠ none)
    (huniqueNames : ((before ++ canonical).map Plugin.uniqueName).Nodup)
    (hfunctions : ∀ p ∈ canonical, (p.functions.map Function.name).Nodup)
    (hresolved : ∀ p ∈ canonical, p.Resolved) :
    (reconcileAll (before ++ ps) canonical).1 = before ++ canonical := by
  -- the plugins in front are settled already, and one more moves there in each round
  induction canonical generalizing before ps with
  | nil =>
    rw [List.map_eq_nil_iff.mp hsame]
    rfl
  | cons remote rest ih =>
    obtain ⟨here, ps', rfl, hhere, hrest⟩ := List.map_eq_cons_iff.mp hsame
    have hbefore : ∀ b ∈ before, b.uniqueName ≠ remote.uniqueName := by
      intro b hb heq
      rw [List.map_append, List.nodup_append] at huniqueNames
      exact huniqueNames.2.2 b.uniqueName (List.mem_map_of_mem hb) remote.uniqueName
        (List.mem_map_of_mem List.mem_cons_self) heq
    have hunique : here.outline.uniqueName = remote.outline.uniqueName := by rw [hhere]
    have hplace : remote.positionIn? (before ++ here :: ps') = some before.length :=
      Plugin.positionIn?_append_cons (hnamed remote List.mem_cons_self) hunique hbefore
    have hstep : (reconcileOne (before ++ here :: ps') remote).1 = before ++ [remote] ++ ps' := by
      rw [(reconcileOne_of_match hplace).1, List.modify_eq_set_getElem?]
      simp [resolvePlugin_of_outline hhere (hfunctions remote List.mem_cons_self)
        (hresolved remote List.mem_cons_self)]
    have hmove : before ++ remote :: rest = before ++ [remote] ++ rest := by
      rw [List.append_assoc]
      rfl
    rw [hmove] at huniqueNames ⊢
    rw [reconcileAll_cons, hstep]
    exact ih (before ++ [remote]) hrest (fun p hp => hnamed p (List.mem_cons_of_mem remote hp)) huniqueNames
      (fun p hp => hfunctions p (List.mem_cons_of_mem remote hp))
      fun p hp => hresolved p (List.mem_cons_of_mem remote hp)

/-- **A roster takes over a canonical copy as a whole**: afterwards the two are equal, every
canonical plugin was matched, and none was added. -/
theorem reconcile_of_outline (g : Registry)
    (hsame : g.plugins.map Plugin.outline = canonical.map Plugin.outline)
    (hdistinct : Plugin.Distinct canonical) (hresolved : ∀ p ∈ canonical, p.Resolved) :
    (g.reconcile canonical).1.plugins = canonical ∧
      (g.reconcile canonical).2.matched = canonical.length ∧
      (g.reconcile canonical).2.adopted = 0 := by
  have hmatched : ∀ remote ∈ canonical, (remote.positionIn? g.plugins).isSome = true := by
    intro remote hremote
    rw [Plugin.positionIn?_congr hsame]
    exact Plugin.isSome_positionIn?_of_mem hremote
  obtain ⟨-, hcount, hadopted⟩ := reconcileAll_of_matched hmatched
  refine ⟨?_, hcount, hadopted⟩
  exact reconcileAll_of_outline [] hsame hdistinct.named hdistinct.uniqueNames
    hdistinct.functions hresolved

end Registry

end Coordination
