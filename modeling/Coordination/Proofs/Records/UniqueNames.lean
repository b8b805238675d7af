import Coordination.Proofs.Records.Canonical
import Coordination.Proofs.Registry.Additions
import Coordination.Reproducible
/-!
# Unique names of canonical plugins

A plugin that is reported without a unique name is looked for by its display name, and recorded
under it as its unique name.  Nobody looks whether another plugin goes by this unique name already.
That is the only way in which a unique name comes to stand twice in the list of a host, and it
cannot come to stand there three times, since no display name does twice.
-/

namespace Coordination

/-- A plugin without a unique name is about to take one that stands in a list: nobody there has its
display name for display, and somebody has it for a unique name. -/
def Plugin.Usurps (p : Plugin) (known : List Plugin) : Prop :=
  p.uniqueName = none ∧ (∃ q ∈ known, q.uniqueName = some p.name) ∧ ∀ q ∈ known, q.name ≠ p.name

instance (p : Plugin) (known : List Plugin) : Decidable (p.Usurps known) :=
  inferInstanceAs (Decidable (_ ∧ _ ∧ _))

/-- The names in a canonical list.  Every plugin has a unique name, no display name stands twice,
and of two plugins with one unique name the later one has it for display as well. -/
structure Plugin.Canonical (ps : List Plugin) : Prop where
  named : ∀ p ∈ ps, p.uniqueName ≠ none
  names : (ps.map Plugin.name).Nodup
  clashes : ps.Pairwise fun p q => q.uniqueName = p.uniqueName → q.uniqueName = some q.name

namespace Plugin

variable {p : Plugin} {ps known : List Plugin}

/-- Whoever takes a name in this way has no match. -/
theorem Usurps.positionIn? (h : p.Usurps known) : p.positionIn? known = none := by
  obtain ⟨hnone, -, hnames⟩ := h
  exact positionIn?_eq_none_iff.mpr ⟨fun _ _ => .inl hnone, hnames⟩

theorem canonical_nil : Canonical [] :=
  ⟨fun _ h => absurd h List.not_mem_nil, List.nodup_nil, .nil⟩

/-- Where a unique name is also a display name wherever it stands, it stands once. -/
theorem count_uniqueName_le_one {unique : Option String} (hnames : (ps.map name).Nodup)
    (h : ∀ p ∈ ps, p.uniqueName = unique → p.uniqueName = some p.name) :
    (ps.map uniqueName).count unique ≤ 1 := by
  have hsome : ((ps.map name).map some).Nodup := hnames.map fun _ _ => Option.some.inj
  have hmono : (ps.map uniqueName).count unique ≤ ((ps.map name).map some).count unique := by
    rw [List.map_map]
    simp only [List.count, List.countP_map]
    refine List.countP_mono_left fun p hp heq => ?_
    have hunique : p.uniqueName = unique := by simpa using heq
    have hname : some p.name = unique := (h p hp hunique).symm.trans hunique
    simpa using hname
  exact hmono.trans (List.nodup_iff_count_le_one.mp hsome unique)

/-- No unique name stands more than twice. -/
theorem Canonical.count_le_two (h : Canonical ps) (unique : Option String) :
    (ps.map uniqueName).count unique ≤ 2 := by
  induction ps with
  | nil => simp
  | cons p ps ih =>
    obtain ⟨hnamed, hnames, hclashes⟩ := h
    obtain ⟨-, hrestNames⟩ := List.nodup_cons.mp hnames
    obtain ⟨hfirst, hrestClashes⟩ := List.pairwise_cons.mp hclashes
    have hrest : Canonical ps :=
      ⟨fun q hq => hnamed q (List.mem_cons_of_mem p hq), hrestNames, hrestClashes⟩
    rw [List.map_cons, List.count_cons]
    split
    · next heq =>
      -- all others with the name of the first one have it for display
      have hown : p.uniqueName = unique := by simpa using heq
      have hone := count_uniqueName_le_one hrestNames fun q hq hq' =>
        hfirst q hq (hq'.trans hown.symm)
      omega
    · exact ih hrest

end Plugin

namespace Records

variable {newId : Nat → String} {known ps : List Plugin} {p : Plugin}

/-! ## Newcomers -/

/-- The copy of a newcomer brings a unique name that is there already just if the newcomer usurps
it. -/
theorem mem_uniqueNames_iff_usurps (serial : Nat) (hnone : p.positionIn? known = none) :
    (canonical newId serial p).uniqueName ∈ known.map Plugin.uniqueName ↔ p.Usurps known := by
  obtain ⟨hapart, hnames⟩ := Plugin.positionIn?_eq_none_iff.mp hnone
  have hcopy : (canonical newId serial p).uniqueName = p.uniqueName.or (some p.name) := rfl
  rw [List.mem_map, hcopy]
  unfold Plugin.Usurps
  -- a plugin with a unique name of its own keeps it, and it would have been matched by it
  cases hunique : p.uniqueName with
  | none =>
    rw [Option.none_or]
    exact ⟨fun hused => ⟨rfl, hused, hnames⟩, fun h => h.2.1⟩
  | some unique =>
    rw [Option.some_or]
    refine iff_of_false ?_ fun h => nomatch h.1
    rintro ⟨q, hq, hsame⟩
    rcases hapart q hq with hother | hne
    · exact nomatch hunique.symm.trans hother
    · exact hne (hsame.trans hunique.symm)

theorem recordAll_concat (serial : Nat) (known ps : List Plugin) (p : Plugin) :
    (recordAll newId serial known (ps ++ [p])).1 =
      match p.positionIn? (recordAll newId serial known ps).1 with
      | some _ => (recordAll newId serial known ps).1
      | none => (recordAll newId serial known ps).1 ++
          [canonical newId (recordAll newId serial known ps).2 p] := by
  induction ps generalizing serial known with
  | nil =>
    show (recordAll newId serial known [p]).1 = _
    unfold recordAll
    cases p.positionIn? known with
    | none => rfl
    | some i => rfl
  | cons q ps ih =>
    rw [List.cons_append]
    unfold recordAll
    cases q.positionIn? known with
    | none => exact ih _ _
    | some i => exact ih _ _

/-! ## One report -/

/-- **When a report leaves unique names unique**: just if nothing in it usurps one when its turn
comes. -/
theorem nodup_recordAll_iff (serial : Nat) (known ps : List Plugin) :
    ((recordAll newId serial known ps).1.map Plugin.uniqueName).Nodup ↔
      (known.map Plugin.uniqueName).Nodup ∧
        ∀ turn ∈ turns ps, ¬ turn.2.Usurps (recordAll newId serial known turn.1).1 := by
  -- each turn is judged by what was recorded before it, so the induction adds plugins behind
  induction ps using List.reverseRecOn with
  | nil => exact ⟨fun h => ⟨h, fun _ hmem => absurd hmem List.not_mem_nil⟩, fun h => h.1⟩
  | append_singleton ps p ih =>
    have hturns :
        (∀ turn ∈ turns (ps ++ [p]), ¬ turn.2.Usurps (recordAll newId serial known turn.1).1) ↔
        (∀ turn ∈ turns ps, ¬ turn.2.Usurps (recordAll newId serial known turn.1).1) ∧
          ¬ p.Usurps (recordAll newId serial known ps).1 := by
      rw [turns_concat, List.forall_mem_append]
      simp
    rw [hturns, ← and_assoc, ← ih, recordAll_concat]
    cases hplace : p.positionIn? (recordAll newId serial known ps).1 with
    | some i =>
      have hmatched : ¬ p.Usurps (recordAll newId serial known ps).1 := by
        intro husurps
        rw [husurps.positionIn?] at hplace
        cases hplace
      exact (and_iff_left hmatched).symm
    | none =>
      rw [← mem_uniqueNames_iff_usurps (recordAll newId serial known ps).2 hplace,
        List.map_append, List.map_singleton, ← List.concat_eq_append, List.nodup_concat]
      exact and_comm

/-- The copy of a newcomer keeps the names of a list in order. -/
theorem canonical_append_canonical (serial : Nat) (h : Plugin.Canonical known)
    (hnone : p.positionIn? known = none) :
    Plugin.Canonical (known ++ [canonical newId serial p]) := by
  have hcopy : (canonical newId serial p).uniqueName = p.uniqueName.or (some p.name) := rfl
  constructor
  case named =>
    intro q hq
    rcases List.mem_append.mp hq with hq | hq
    · exact h.named q hq
    · rw [List.mem_singleton.mp hq, hcopy]
      cases p.uniqueName <;> exact Option.some_ne_none _
  case names => exact (grows_append_canonical serial hnone).names h.names
  case clashes =>
    refine List.pairwise_append.mpr ⟨h.clashes, List.pairwise_singleton _ _, ?_⟩
    intro q hq c hc hsame
    rw [List.mem_singleton.mp hc] at hsame ⊢
    -- only a plugin without a unique name is recorded under one that is taken
    have husurps : p.Usurps known := (mem_uniqueNames_iff_usurps serial hnone).mp
      (List.mem_map.mpr ⟨q, hq, hsame.symm⟩)
    rw [hcopy, husurps.1]
    rfl

theorem canonical_recordAll (serial : Nat) (h : Plugin.Canonical known) (ps : List Plugin) :
    Plugin.Canonical (recordAll newId serial known ps).1 := by
  induction ps using List.reverseRecOn with
  | nil => exact h
  | append_singleton ps p ih =>
    rw [recordAll_concat]
    split
    · exact ih
    · next hnone => exact canonical_append_canonical _ ih hnone

/-! ## Runs -/

section runs
variable {r : Records} {report : Report} {hostId : String}

theorem pluginsOf_of_unknown (h : r.entry? hostId = none) : r.pluginsOf hostId = [] := by
  unfold pluginsOf host?
  rw [h]
  rfl

/-- The list of a host on record after a report. -/
theorem pluginsOf_after (h : (r.entry? report.hostId).isSome = true) :
    (r.after report).pluginsOf report.hostId =
      (recordAll r.newId r.issued (r.pluginsOf report.hostId) report.plugins).1 := by
  obtain ⟨e, hentry⟩ := Option.isSome_iff_exists.mp h
  have hhost : r.host? report.hostId = some e.host := by
    unfold host?
    rw [hentry]
    rfl
  obtain ⟨hsync, -⟩ := (takes r report).known h
  rw [pluginsOf_eq hentry]
  exact eq_of_sync hhost hsync

/-- The list of a host after a report of another one. -/
theorem pluginsOf_after_of_ne (hne : report.hostId ≠ hostId) :
    (r.after report).pluginsOf hostId = r.pluginsOf hostId :=
  pluginsOf_congr (entry?_after_of_ne hne.symm)

theorem canonical_after (h : Plugin.Canonical (r.pluginsOf hostId)) (report : Report) :
    Plugin.Canonical ((r.after report).pluginsOf hostId) := by
  by_cases hsame : report.hostId = hostId
  · subst hsame
    match hentry : r.entry? report.hostId with
    | none =>
      rw [(after_of_unknown hentry).2]
      exact h
    | some e =>
      rw [pluginsOf_after (Option.isSome_of_eq_some hentry)]
      exact canonical_recordAll _ h _
  · rw [pluginsOf_after_of_ne hsame]
    exact h

/-- A report leaves the unique names of a host unique just if nothing that this host reports usurps
one when its turn comes. -/
theorem nodup_after_iff (r : Records) (report : Report) (hostId : String) :
    (((r.after report).pluginsOf hostId).map Plugin.uniqueName).Nodup ↔
      ((r.pluginsOf hostId).map Plugin.uniqueName).Nodup ∧
        (report.hostId = hostId → ∀ turn ∈ turns report.plugins,
          ¬ turn.2.Usurps ((r.after ⟨hostId, turn.1⟩).pluginsOf hostId)) := by
  by_cases hsame : report.hostId = hostId
  · subst hsame
    match hentry : r.entry? report.hostId with
    | none =>
      -- a host that is not on record has no list, and reports in vain
      have hlist : ∀ ps, (r.after ⟨report.hostId, ps⟩).pluginsOf report.hostId = [] := by
        intro ps
        have hunknown : r.entry? (Report.mk report.hostId ps).hostId = none := hentry
        rw [(after_of_unknown hunknown).2]
        exact pluginsOf_of_unknown hentry
      have hnobody : ∀ p : Plugin, ¬ p.Usurps [] := by
        rintro p ⟨-, ⟨q, hq, -⟩, -⟩
        exact absurd hq List.not_mem_nil
      rw [hlist report.plugins, pluginsOf_of_unknown hentry]
      refine ⟨fun h => ⟨h, fun _ turn _ => ?_⟩, fun h => h.1⟩
      rw [hlist turn.1]
      exact hnobody turn.2
    | some e =>
      have hlist : ∀ ps, (r.after ⟨report.hostId, ps⟩).pluginsOf report.hostId =
          (recordAll r.newId r.issued (r.pluginsOf report.hostId) ps).1 :=
        fun ps => pluginsOf_after (Option.isSome_of_eq_some hentry)
      simp only [hlist, forall_const]
      exact nodup_recordAll_iff _ _ _
  · rw [pluginsOf_after_of_ne hsame]
    exact (and_iff_left fun heq => absurd heq hsame).symm

theorem afterAll_concat (r : Records) (reports : List Report) (report : Report) :
    r.afterAll (reports ++ [report]) = (r.afterAll reports).after report := by
  unfold afterAll
  rw [List.foldl_append]
  rfl

end runs

/-- **The unique names in the list of a host.**  From an empty list on, whatever hosts report, every
entry of a host has a unique name and a display name of its own, and no unique name stands more than
twice.  It stands once, each of them, just if never a plugin without a unique name was reported
under a display name that nobody displayed and that was a unique name already. -/
theorem uniqueNames_after_reports (r : Records) (hostId : String) (reports : List Report)
    (hempty : r.pluginsOf hostId = []) :
    let plugins := (r.afterAll reports).pluginsOf hostId
    Plugin.Canonical plugins ∧
      (∀ unique, (plugins.map Plugin.uniqueName).count unique ≤ 2) ∧
      ((plugins.map Plugin.uniqueName).Nodup ↔
        ∀ turn ∈ turns reports, turn.2.hostId = hostId → ∀ turn' ∈ turns turn.2.plugins,
          ¬ turn'.2.Usurps (((r.afterAll turn.1).after ⟨hostId, turn'.1⟩).pluginsOf hostId)) := by
  have hcanonical : Plugin.Canonical ((r.afterAll reports).pluginsOf hostId) := by
    induction reports using List.reverseRecOn with
    | nil =>
      show Plugin.Canonical (r.pluginsOf hostId)
      rw [hempty]
      exact Plugin.canonical_nil
    | append_singleton reports report ih =>
      rw [afterAll_concat]
      exact canonical_after ih report
  refine ⟨hcanonical, hcanonical.count_le_two, ?_⟩
  clear hcanonical
  induction reports using List.reverseRecOn with
  | nil =>
    have hnil : (r.afterAll []).pluginsOf hostId = [] := hempty
    rw [hnil]
    exact iff_of_true List.nodup_nil fun _ hmem => absurd hmem List.not_mem_nil
  | append_singleton reports report ih =>
    rw [afterAll_concat, nodup_after_iff, ih, turns_concat, List.forall_mem_append,
      List.forall_mem_singleton]

/-- A lamp that is reported by its display name first is found by it when it has a unique name. -/
theorem uniqueNames_after_reports_same_lamp :
    let lab := Records.addHost { newId := serialId } "h1" "Lab" none
    let reports : List Report :=
      [⟨"h1", [{ name := "Lamp" }]⟩, ⟨"h1", [{ uniqueName := some "Lamp", name := "Desk lamp" }]⟩]
    lab.pluginsOf "h1" = [] ∧
      (((lab.afterAll reports).pluginsOf "h1").map Plugin.uniqueName).Nodup :=
  ⟨by decide, (uniqueNames_after_reports _ "h1" _ (by decide)).2.2.mpr (by decide)⟩

/-- The other way round it is recorded a second time, under the unique name that it was recorded
under before. -/
theorem unique_name_recorded_twice :
    let lab := Records.addHost { newId := serialId } "h1" "Lab" none
    let reports : List Report :=
      [⟨"h1", [{ uniqueName := some "Lamp", name := "Desk lamp" }]⟩, ⟨"h1", [{ name := "Lamp" }]⟩]
    lab.pluginsOf "h1" = [] ∧
      ((lab.afterAll reports).pluginsOf "h1").map Plugin.uniqueName = [some "Lamp", some "Lamp"] ∧
      ¬ (((lab.afterAll reports).pluginsOf "h1").map Plugin.uniqueName).Nodup := by
  decide

end Records

end Coordination
