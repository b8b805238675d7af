import Coordination.Proofs.Registry.Assignments
/-!
# How often to reconcile

After a reconciliation every canonical plugin has a match, so reconciling once more only assigns
ids, and a third time changes nothing.  The second time may still change ids: a plugin that was
added lately can be the match of an earlier one, and a plugin with two functions of one name assigns
two ids to the first of them when it meets itself.  A list without such repetitions settles at once.

A plugin that is known by its unique name takes over the id of the canonical plugin of this name,
unless a later one that nobody knows by its unique name is taken for it by its display name.
-/

namespace Coordination

/-- A canonical list in which every name stands for one thing: no two plugins go by one unique name,
and no two functions of a plugin by one name. -/
structure Plugin.Unambiguous (canonical : List Plugin) : Prop where
  plugins : canonical.Pairwise Plugin.Apart
  functions : ∀ p ∈ canonical, (p.functions.map Function.name).Nodup

/-- The id of the last plugin that has one, or `id` if none has. -/
def Plugin.lastId (id : Option String) (ps : List Plugin) : Option String :=
  ps.foldl (fun id p => p.id.or id) id

namespace Registry

open Assignment

variable {ps qs canonical rest : List Plugin} {remote : Plugin} {i : Nat}

/-! ## What stays -/

theorem reconcileAll_cons (ps : List Plugin) (remote : Plugin) (rest : List Plugin) :
    reconcileAll ps (remote :: rest) =
      ((reconcileAll (reconcileOne ps remote).1 rest).1,
        (reconcileOne ps remote).2.add (reconcileAll (reconcileOne ps remote).1 rest).2) := rfl

/-- A reconciliation changes ids, and adds canonical plugins at the end. -/
theorem map_outline_reconcileAll (ps canonical : List Plugin) :
    ∃ added, (∀ q ∈ added, q ∈ canonical) ∧
      (reconcileAll ps canonical).1.map Plugin.outline = (ps ++ added).map Plugin.outline := by
  -- on the canonical list, for any plugins at the start: each entry is matched or added
  induction canonical generalizing ps with
  | nil => exact ⟨[], fun q hq => absurd hq List.not_mem_nil, by rw [List.append_nil]; rfl⟩
  | cons remote rest ih =>
    obtain ⟨added, hadded, houtline⟩ := ih (reconcileOne ps remote).1
    rw [reconcileAll_cons]
    cases hplace : remote.positionIn? ps with
    | some i =>
      refine ⟨added, fun q hq => List.mem_cons_of_mem remote (hadded q hq), houtline.trans ?_⟩
      rw [(reconcileOne_of_match hplace).1, ← applyAll_assignments, List.map_append,
        map_outline_applyAll, ← List.map_append]
    | none =>
      refine ⟨remote :: added, ?_, houtline.trans ?_⟩
      · intro q hq
        rcases List.mem_cons.mp hq with rfl | hq
        · exact List.mem_cons_self
        · exact List.mem_cons_of_mem remote (hadded q hq)
      · rw [reconcileOne_of_none hplace, List.append_assoc]
        rfl

/-- Once it was reconciled, a canonical plugin has a match. -/
theorem isSome_positionIn?_reconcileAll (ps : List Plugin) (h : remote ∈ canonical) :
    (remote.positionIn? (reconcileAll ps canonical).1).isSome = true := by
  -- the turns before its own may change the list, so the induction is for every list
  induction canonical generalizing ps with
  | nil => cases h
  | cons first rest ih =>
    rcases List.mem_cons.mp h with rfl | hrest
    · -- its own turn gives it a match, and the rest leaves it one
      have hnow : (remote.positionIn? (reconcileOne ps remote).1).isSome = true := by
        cases hplace : remote.positionIn? ps with
        | some i =>
          have houtline : (reconcileOne ps remote).1.map Plugin.outline =
              ps.map Plugin.outline := by
            rw [(reconcileOne_of_match hplace).1, ← applyAll_assignments, map_outline_applyAll]
          rw [Plugin.positionIn?_congr houtline, hplace]
          rfl
        | none =>
          rw [reconcileOne_of_none hplace, Plugin.positionIn?_append_self hplace]
          rfl
      obtain ⟨added, -, houtline⟩ := map_outline_reconcileAll (reconcileOne ps remote).1 rest
      rw [reconcileAll_cons, Plugin.positionIn?_congr houtline]
      exact Plugin.isSome_positionIn?_append hnow added
    · exact ih (reconcileOne ps first).1 hrest

/-! ## Reconciling what has a match -/

/-- What canonical plugins assign to a list. -/
def written (ps canonical : List Plugin) : List Assignment :=
  canonical.flatMap fun remote => ((remote.positionIn? ps).map remote.assignments).getD []

theorem written_congr (h : qs.map Plugin.outline = ps.map Plugin.outline)
    (canonical : List Plugin) : written qs canonical = written ps canonical := by
  unfold written
  simp only [Plugin.positionIn?_congr h]

theorem written_cons (h : remote.positionIn? ps = some i) (rest : List Plugin) :
    written ps (remote :: rest) = remote.assignments i ++ written ps rest := by
  unfold written
  rw [List.flatMap_cons, h]
  rfl

/-- Where every canonical plugin has a match, ids are assigned and nothing is added. -/
theorem reconcileAll_of_matched
    (h : ∀ remote ∈ canonical, (remote.positionIn? ps).isSome = true) :
    (reconcileAll ps canonical).1 = applyAll ps (written ps canonical) ∧
      (reconcileAll ps canonical).2.matched = canonical.length ∧
      (reconcileAll ps canonical).2.adopted = 0 := by
  induction canonical generalizing ps with
  | nil => exact ⟨rfl, rfl, rfl⟩
  | cons remote rest ih =>
    obtain ⟨i, hplace⟩ := Option.isSome_iff_exists.mp (h remote List.mem_cons_self)
    obtain ⟨hplugins, hmatched, hadopted⟩ := reconcileOne_of_match hplace
    rw [← applyAll_assignments] at hplugins
    have houtline : (reconcileOne ps remote).1.map Plugin.outline = ps.map Plugin.outline := by
      rw [hplugins, map_outline_applyAll]
    -- the rest has its matches in the same places
    have hlater : ∀ later ∈ rest, (later.positionIn? (reconcileOne ps remote).1).isSome = true := by
      intro later hlater
      rw [Plugin.positionIn?_congr houtline]
      exact h later (List.mem_cons_of_mem remote hlater)
    obtain ⟨hrest, hrestMatched, hrestAdopted⟩ := ih hlater
    rw [reconcileAll_cons]
    unfold Reconciliation.add
    refine ⟨?_, ?_, ?_⟩
    · rw [hrest, written_congr houtline, hplugins, written_cons hplace, applyAll_append]
    · rw [hmatched, hrestMatched, List.length_cons, Nat.add_comm]
    · rw [hadopted, hrestAdopted]

/-! ## Reconciling an unambiguous list -/

/-- A function of its own has its id already. -/
theorem setFunctionId_self {fs : List Function} (hnames : (fs.map Function.name).Nodup)
    {f : Function} (hf : f ∈ fs) {id : String} (hid : f.id = some id) :
    setFunctionId f.name id fs = fs := by
  induction fs with
  | nil => cases hf
  | cons g gs ih =>
    obtain ⟨hfirst, hrest⟩ := List.nodup_cons.mp hnames
    rcases List.mem_cons.mp hf with rfl | hmem
    · simp only [setFunctionId, if_true, ← hid]
    · have hne : g.name ≠ f.name := by
        intro heq
        exact hfirst (heq ▸ List.mem_map_of_mem hmem)
      simp only [setFunctionId, if_neg hne, ih hrest hmem]

/-- A plugin that gives its ids to itself stays as it is, if its functions have names of their
own. -/
theorem resolvePlugin_self (h : (remote.functions.map Function.name).Nodup) :
    (resolvePlugin remote remote).1 = remote := by
  -- each id goes to the function that has it already
  have hentries : ∀ entries : List (String × String),
      (∀ entry ∈ entries, ∃ f ∈ remote.functions, f.name = entry.1 ∧ f.id = some entry.2) →
      entries.foldl (fun fs entry => setFunctionId entry.1 entry.2 fs) remote.functions =
        remote.functions := by
    intro entries
    induction entries with
    | nil => exact fun _ => rfl
    | cons entry entries ih =>
      intro hall
      obtain ⟨f, hf, hname, hid⟩ := hall entry List.mem_cons_self
      have hself : setFunctionId entry.1 entry.2 remote.functions = remote.functions :=
        hname ▸ setFunctionId_self h hf hid
      rw [List.foldl_cons, hself]
      exact ih fun later hlater => hall later (List.mem_cons_of_mem entry hlater)
  have hfunctions : (resolveFunctions remote.functions remote.functions).1 =
      remote.functions := by
    rw [resolveFunctions_eq]
    refine hentries _ fun entry hentry => ?_
    obtain ⟨f, hf, hsome⟩ := List.mem_filterMap.mp hentry
    obtain ⟨id, hid, rfl⟩ := Option.map_eq_some_iff.mp hsome
    exact ⟨f, hf, rfl, hid⟩
  unfold resolvePlugin
  show ({ remote with id := remote.id.or remote.id, functions := _ } : Plugin) = remote
  rw [hfunctions, Option.or_self]

/-- An unambiguous list might as well be added first, as far as it is new, and be assigned then. -/
theorem reconcileAll_of_unambiguous (h : Plugin.Unambiguous canonical) (ps : List Plugin) :
    ∃ added, (∀ q ∈ added, q ∈ canonical) ∧
      (reconcileAll ps canonical).1 = applyAll (ps ++ added) (written (ps ++ added) canonical) := by
  induction canonical generalizing ps with
  | nil => exact ⟨[], fun q hq => absurd hq List.not_mem_nil, (List.append_nil ps).symm⟩
  | cons remote rest ih =>
    obtain ⟨hapart, hpairs⟩ := List.pairwise_cons.mp h.plugins
    obtain ⟨added, hadded, hall⟩ :=
      ih ⟨hpairs, fun p hp => h.functions p (List.mem_cons_of_mem remote hp)⟩
        (reconcileOne ps remote).1
    have hnew : ∀ q ∈ added, remote.Apart q := fun q hq => hapart q (hadded q hq)
    rw [reconcileAll_cons]
    cases hplace : remote.positionIn? ps with
    | some i =>
      -- the ids of the match do not depend on what comes behind it
      have hlater : (reconcileOne ps remote).1 ++ added =
          applyAll (ps ++ added) (remote.assignments i) := by
        rw [(reconcileOne_of_match hplace).1, ← applyAll_assignments, applyAll_append_left]
        intro a ha
        rw [place_of_mem_assignments ha]
        exact Plugin.lt_length_of_positionIn? hplace
      refine ⟨added, fun q hq => List.mem_cons_of_mem remote (hadded q hq), hall.trans ?_⟩
      rw [hlater, written_congr (map_outline_applyAll _ _),
        written_cons (Plugin.positionIn?_append_of_apart hplace hnew), applyAll_append]
    | none =>
      have hself : ps ++ [remote] ++ added =
          applyAll (ps ++ [remote] ++ added) (remote.assignments ps.length) := by
        rw [applyAll_append_left, applyAll_assignments, List.modify_eq_set_getElem?]
        · simp [resolvePlugin_self (h.functions remote List.mem_cons_self)]
        · intro a ha
          rw [place_of_mem_assignments ha, List.length_append]
          exact Nat.lt_add_one ps.length
      have hown := Plugin.positionIn?_append_of_apart (Plugin.positionIn?_append_self hplace) hnew
      refine ⟨remote :: added, ?_, hall.trans ?_⟩
      · intro q hq
        rcases List.mem_cons.mp hq with rfl | hq
        · exact List.mem_cons_self
        · exact List.mem_cons_of_mem remote (hadded q hq)
      · show _ = applyAll (ps ++ ([remote] ++ added)) (written (ps ++ ([remote] ++ added)) _)
        rw [reconcileOne_of_none hplace, ← List.append_assoc, written_cons hown, applyAll_append, ← hself]

/-! ## Reconciling again -/

/-- **Reconciling settles at the second time.**  The second time finds a match for every canonical
plugin and changes nothing but ids, the third time changes nothing, and for an unambiguous list
already the second time does not. -/
theorem reconcile_settles (g : Registry) (canonical : List Plugin) :
    let once := (g.reconcile canonical).1
    let twice := (once.reconcile canonical).1
    (twice.reconcile canonical).1 = twice ∧
      twice.plugins.map Plugin.outline = once.plugins.map Plugin.outline ∧
      (once.reconcile canonical).2.matched = canonical.length ∧
      (once.reconcile canonical).2.adopted = 0 ∧
      (Plugin.Unambiguous canonical → twice = once) := by
  intro once twice
  -- after the first time every canonical plugin has a match, so nothing is added any more
  have hmatched : ∀ remote ∈ canonical, (remote.positionIn? once.plugins).isSome = true :=
    fun remote hremote => isSome_positionIn?_reconcileAll g.plugins hremote
  obtain ⟨htwice, hcount, hadopted⟩ := reconcileAll_of_matched hmatched
  have htwice : twice.plugins = applyAll once.plugins (written once.plugins canonical) := htwice
  have houtline : twice.plugins.map Plugin.outline = once.plugins.map Plugin.outline := by
    rw [htwice, map_outline_applyAll]
  refine ⟨?_, houtline, hcount, hadopted, ?_⟩
  · -- the third time assigns what the second one assigned
    have hmatched' : ∀ remote ∈ canonical, (remote.positionIn? twice.plugins).isSome = true := by
      intro remote hremote
      rw [Plugin.positionIn?_congr houtline]
      exact hmatched remote hremote
    have hthrice : (reconcileAll twice.plugins canonical).1 = twice.plugins := by
      rw [(reconcileAll_of_matched hmatched').1, written_congr houtline, htwice,
        applyAll_applyAll]
    show ({ twice with plugins := (reconcileAll twice.plugins canonical).1 } : Registry) = twice
    rw [hthrice]
  · -- the second time assigns what the first one assigned
    intro hunambiguous
    obtain ⟨added, -, honce⟩ := reconcileAll_of_unambiguous hunambiguous g.plugins
    have honce : once.plugins = applyAll (g.plugins ++ added)
        (written (g.plugins ++ added) canonical) := honce
    have hsame : twice.plugins = once.plugins := by
      rw [htwice, honce, written_congr (map_outline_applyAll _ _), applyAll_applyAll]
    show ({ once with plugins := twice.plugins } : Registry) = once
    rw [hsame]

/-- A plugin that the host knows and one that is new to it. -/
theorem reconcile_settles_new_plugin :
    let g : Registry := { plugins := [{ uniqueName := "lamp", name := "Lamp" }] }
    let canonical : List Plugin :=
      [{ id := "p1", uniqueName := "lamp", name := "Lamp" },
        { id := "p2", name := "Heating", functions := [{ id := "f1", name := "on" }] }]
    let once := (g.reconcile canonical).1
    Plugin.Unambiguous canonical ∧ (once.reconcile canonical).1 = once := by
  intro g canonical once
  have hunambiguous : Plugin.Unambiguous canonical := ⟨by decide, by decide⟩
  exact ⟨hunambiguous, (reconcile_settles g canonical).2.2.2.2 hunambiguous⟩

/-- A plugin with two functions of one name is added with both ids, and when it meets itself the
first function takes over the id of the second. -/
theorem reconcile_twice_ne :
    let canonical : List Plugin :=
      [{ id := "p1", name := "Lamp"
         functions := [{ id := "f1", name := "on" }, { id := "f2", name := "on" }] }]
    let once := (reconcile {} canonical).1
    (once.reconcile canonical).1 ≠ once := by
  decide

/-! ## Unique names and display names -/

/-- What becomes of the id of a known plugin: of the canonical plugins that mean it, the last one
with an id gives its own. -/
theorem id_reconcileAll (h : canonical.Pairwise Plugin.Apart) (hi : i < ps.length) :
    (reconcileAll ps canonical).1[i]?.map Plugin.id = ps[i]?.map fun here =>
      Plugin.lastId here.id
        (canonical.filter fun remote => remote.positionIn? (reconcileAll ps canonical).1 = some i) := by
  induction canonical generalizing ps with
  | nil => rfl
  | cons remote rest ih =>
    obtain ⟨hapart, hpairs⟩ := List.pairwise_cons.mp h
    obtain ⟨added, hadded, houtline⟩ := map_outline_reconcileAll (reconcileOne ps remote).1 rest
    have hnew : ∀ q ∈ added, remote.Apart q := fun q hq => hapart q (hadded q hq)
    -- the place of a plugin is told by names, which ids do not change
    have hplaces : remote.positionIn? (reconcileAll (reconcileOne ps remote).1 rest).1 =
        remote.positionIn? ((reconcileOne ps remote).1 ++ added) :=
      Plugin.positionIn?_congr houtline remote
    rw [reconcileAll_cons]
    cases hplace : remote.positionIn? ps with
    | some j =>
      have hone := (reconcileOne_of_match hplace).1
      have hlength : i < (reconcileOne ps remote).1.length := by
        rw [hone, List.length_modify]
        exact hi
      have hplace' : remote.positionIn? (reconcileAll (reconcileOne ps remote).1 rest).1 =
          some j := by
        rw [hplaces]
        refine Plugin.positionIn?_append_of_apart ?_ hnew
        rw [hone, ← applyAll_assignments, Plugin.positionIn?_congr (map_outline_applyAll _ _),
          hplace]
      have hhere : (reconcileOne ps remote).1[i]? =
          ps[i]?.map fun here => if j = i then (resolvePlugin here remote).1 else here := by
        rw [hone, List.getElem?_modify]
        rfl
      rw [ih hpairs hlength, hhere, List.filter_cons, hplace', Option.map_map]
      by_cases hij : j = i
      · simp only [hij, decide_true, if_true]
        rfl
      · have hne : ¬ some j = some i := fun heq => hij (Option.some.inj heq)
        simp only [if_neg hij, hne, decide_false]
        rfl
    | none =>
      have hone := reconcileOne_of_none hplace
      have hlength : i < (reconcileOne ps remote).1.length := by
        rw [hone, List.length_append]
        exact Nat.lt_add_right 1 hi
      have hplace' : remote.positionIn? (reconcileAll (reconcileOne ps remote).1 rest).1 =
          some ps.length := by
        rw [hplaces, hone]
        exact Plugin.positionIn?_append_of_apart (Plugin.positionIn?_append_self hplace) hnew
      have hhere : (reconcileOne ps remote).1[i]? = ps[i]? := by
        rw [hone, List.getElem?_append_left hi]
      have hne : ¬ some ps.length = some i := fun heq => Nat.ne_of_gt hi (Option.some.inj heq)
      rw [ih hpairs hlength, hhere, List.filter_cons, hplace']
      simp only [hne, decide_false]
      rfl

theorem reconcileAll_append (ps before after : List Plugin) :
    (reconcileAll ps (before ++ after)).1 =
      (reconcileAll (reconcileAll ps before).1 after).1 := by
  induction before generalizing ps with
  | nil => rfl
  | cons remote before ih =>
    rw [List.cons_append, reconcileAll_cons, reconcileAll_cons, ih]

/-- The plugin of a unique name is the one in the first place of it. -/
theorem plugin?_eq_some_iff {g : Registry} {unique : String} {here : Plugin}
    (h : remote.uniqueName = some unique) :
    g.plugin? unique = some here ↔
      ∃ i, remote.uniquePlace? g.plugins = some i ∧ g.plugins[i]? = some here := by
  unfold plugin? Plugin.uniquePlace?
  rw [h, Option.bind_some, List.find?_eq_bind_findIdx?_getElem?, Option.bind_eq_some_iff]

/-- After its own turn a canonical plugin with an id has given it to its match by unique name. -/
theorem id_reconcileOne_of_uniquePlace? (hid : remote.id.isSome = true)
    (h : remote.uniquePlace? (reconcileOne ps remote).1 = some i) :
    (reconcileOne ps remote).1[i]?.map Plugin.id = some remote.id := by
  obtain ⟨own, hown⟩ := Option.isSome_iff_exists.mp hid
  have hplace := Plugin.positionIn?_of_uniquePlace? h
  cases hmatch : remote.positionIn? ps with
  | some j =>
    -- the assignments change no outline, so that the place before is the place after
    have hone := (reconcileOne_of_match hmatch).1
    rw [hone, ← applyAll_assignments, Plugin.positionIn?_congr (map_outline_applyAll _ _),
      hmatch] at hplace
    obtain rfl : j = i := Option.some.inj hplace
    rw [hone, List.getElem?_modify_eq,
      List.getElem?_eq_getElem (Plugin.lt_length_of_positionIn? hmatch)]
    show some (remote.id.or _) = some remote.id
    rw [hown, Option.some_or]
  | none =>
    rw [reconcileOne_of_none hmatch, Plugin.positionIn?_append_self hmatch] at hplace
    obtain rfl : ps.length = i := Option.some.inj hplace
    rw [reconcileOne_of_none hmatch, List.getElem?_concat_length]
    rfl

/-- Nothing of its unique name is added after the turn of a canonical plugin. -/
theorem uniquePlace?_of_reconcileAll (hapart : ∀ later ∈ canonical, remote.Apart later)
    (h : remote.uniquePlace? (reconcileAll ps canonical).1 = some i) :
    remote.uniquePlace? ps = some i := by
  obtain ⟨added, hadded, houtline⟩ := map_outline_reconcileAll ps canonical
  have hplaces : remote.uniquePlace? (ps ++ added) = some i := by
    rw [← Plugin.uniquePlace?_congr houtline, h]
  cases hnow : remote.uniquePlace? ps with
  | none =>
    rw [Plugin.uniquePlace?_append_of_apart hnow fun q hq => hapart q (hadded q hq)] at hplaces
    cases hplaces
  | some j => rwa [Plugin.uniquePlace?_append hnow] at hplaces

/-- The plugin in the place of a unique name has the id of the last canonical plugin that means
it, from the one of this name on. -/
theorem id_of_uniquePlace? {before after : List Plugin} {here : Plugin}
    (hdistinct : (before ++ remote :: after).Pairwise Plugin.Apart) (hid : remote.id.isSome = true)
    (hplace : remote.uniquePlace? (reconcileAll ps (before ++ remote :: after)).1 = some i)
    (hhere : (reconcileAll ps (before ++ remote :: after)).1[i]? = some here) :
    here.id = Plugin.lastId remote.id (after.filter fun later =>
      later.positionIn? (reconcileAll ps (before ++ remote :: after)).1 = some i) := by
  obtain ⟨-, hlist, -⟩ := List.pairwise_append.mp hdistinct
  obtain ⟨hapart, hpairs⟩ := List.pairwise_cons.mp hlist
  -- the list when the turn of the canonical plugin is over
  obtain ⟨turn, hturn⟩ : ∃ turn, turn = (reconcileOne (reconcileAll ps before).1 remote).1 :=
    ⟨_, rfl⟩
  have hrest : (reconcileAll ps (before ++ remote :: after)).1 = (reconcileAll turn after).1 := by
    rw [reconcileAll_append, reconcileAll_cons, hturn]
  rw [hrest] at hplace hhere ⊢
  have hmatch := uniquePlace?_of_reconcileAll hapart hplace
  have hlength : i < turn.length :=
    Plugin.lt_length_of_positionIn? (Plugin.positionIn?_of_uniquePlace? hmatch)
  have hown : turn[i]?.map Plugin.id = some remote.id := by
    rw [hturn] at hmatch ⊢
    exact id_reconcileOne_of_uniquePlace? hid hmatch
  obtain ⟨now, hnow, hnowId⟩ := Option.map_eq_some_iff.mp hown
  have hids := id_reconcileAll hpairs hlength
  rw [hhere, hnow, Option.map_some, Option.map_some, hnowId] at hids
  exact Option.some.inj hids

/-- A plugin that means the place of another unique name means it by its display name, and no
plugin has its own unique name. -/
theorem means_by_name {later here : Plugin} (hapart : remote.Apart later)
    (hplace : remote.uniquePlace? ps = some i) (hhere : ps[i]? = some here)
    (hmeans : later.positionIn? ps = some i) :
    later.uniquePlace? ps = none ∧ later.name = here.name := by
  rw [Plugin.positionIn?_eq, Option.or_eq_some_iff] at hmeans
  rcases hmeans with hsame | ⟨hother, hname⟩
  · -- then it would have the same unique name
    obtain ⟨-, hlaterName⟩ := Plugin.uniqueName_of_uniquePlace? hsame hhere
    obtain ⟨hsome, hownName⟩ := Plugin.uniqueName_of_uniquePlace? hplace hhere
    rcases hapart with hnone | hne
    · exact absurd hnone hsome
    · exact absurd (hlaterName.symm.trans hownName) hne
  · obtain ⟨hlength, hbeq, -⟩ := List.findIdx?_eq_some_iff_getElem.mp hname
    rw [List.getElem?_eq_getElem hlength, Option.some_inj] at hhere
    rw [hhere, beq_iff_eq] at hbeq
    exact ⟨hother, hbeq.symm⟩

/-- **Who gives a plugin its id.**  Where the canonical list names no unique name twice, the plugin
of a unique name has the id of the canonical plugin of this name, unless later canonical plugins
mean it as well; then it has the id of the last of these that has one.  A later plugin means it only
by its display name, and only if no plugin has the unique name of the later one. -/
theorem id_of_uniqueName (g : Registry) {before after : List Plugin} {unique : String}
    {here : Plugin} (hdistinct : (before ++ remote :: after).Pairwise Plugin.Apart)
    (hunique : remote.uniqueName = some unique) (hid : remote.id.isSome = true)
    (hhere : (g.reconcile (before ++ remote :: after)).1.plugin? unique = some here) :
    let once := (g.reconcile (before ++ remote :: after)).1
    here.id = Plugin.lastId remote.id (after.filter fun later =>
        later.positionIn? once.plugins = remote.positionIn? once.plugins) ∧
      ((∀ later ∈ after, later.name = here.name →
          (later.uniqueName.bind once.plugin?).isSome = true) → here.id = remote.id) := by
  intro once
  obtain ⟨-, hlist, -⟩ := List.pairwise_append.mp hdistinct
  obtain ⟨hapart, -⟩ := List.pairwise_cons.mp hlist
  obtain ⟨i, hplace, hgot⟩ := (plugin?_eq_some_iff hunique).mp hhere
  have hplace : remote.uniquePlace? once.plugins = some i := hplace
  have hgot : once.plugins[i]? = some here := hgot
  have hlast : here.id = Plugin.lastId remote.id (after.filter fun later =>
      later.positionIn? once.plugins = some i) := id_of_uniquePlace? hdistinct hid hplace hgot
  refine ⟨?_, fun hnames => ?_⟩
  · rw [Plugin.positionIn?_of_uniquePlace? hplace]
    exact hlast
  · have hnone : after.filter (fun later => later.positionIn? once.plugins = some i) = [] := by
      rw [List.filter_eq_nil_iff]
      intro later hlater hmeans
      rw [decide_eq_true_iff] at hmeans
      obtain ⟨hother, hname⟩ := means_by_name (hapart later hlater) hplace hgot hmeans
      -- its own unique name would lead elsewhere
      obtain ⟨known, hknown⟩ := Option.isSome_iff_exists.mp (hnames later hlater hname)
      obtain ⟨other, hotherName, hfound⟩ := Option.bind_eq_some_iff.mp hknown
      obtain ⟨j, hj, -⟩ := (plugin?_eq_some_iff hotherName).mp hfound
      rw [hother] at hj
      cases hj
    rw [hlast, hnone]
    rfl

/-- Two plugins of one display name, both known by their unique names. -/
theorem id_of_uniqueName_same_names :
    let g : Registry :=
      { plugins := [{ uniqueName := "Acme.Weather", name := "Weather" },
          { uniqueName := "Other.Weather", name := "Weather" }] }
    let first : Plugin := { id := "p1", uniqueName := "Acme.Weather", name := "Weather" }
    let second : Plugin := { id := "p2", uniqueName := "Other.Weather", name := "Weather" }
    [first, second].Pairwise Plugin.Apart ∧
      (g.reconcile [first, second]).1.plugin? "Acme.Weather" = some first ∧
      first.id = some "p1" := by
  intro g first second
  have hdistinct : ([] ++ first :: [second]).Pairwise Plugin.Apart := by decide
  have hhere : (g.reconcile ([] ++ first :: [second])).1.plugin? "Acme.Weather" = some first := by
    decide
  have hid := id_of_uniqueName g hdistinct rfl rfl hhere
  exact ⟨hdistinct, hhere, hid.2 (by decide)⟩

/-- Of two canonical plugins of one display name, the host knows the first by its unique name and
gives it the id of the second. -/
theorem id_of_other_uniqueName :
    let g : Registry := { plugins := [{ uniqueName := "Acme.Weather", name := "Weather" }] }
    let canonical : List Plugin :=
      [{ id := "p1", uniqueName := "Acme.Weather", name := "Weather" },
        { id := "p2", uniqueName := "Other.Weather", name := "Weather" }]
    canonical.Pairwise Plugin.Apart ∧
      ((g.reconcile canonical).1.plugin? "Acme.Weather").map Plugin.id = some (some "p2") := by
  decide

end Registry

end Coordination
