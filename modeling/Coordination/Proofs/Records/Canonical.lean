import Coordination.Proofs.Records.Recording
/-!
# The lists of canonical plugins over a run

Hosts report their plugins again and again, each time with whatever they have registered.  However
often they do, an entry that was once recorded stays where it is and as it is, newcomers stand behind
it with all their ids, and a report concerns the list of the host that it names and nothing else.
-/

namespace Coordination

/-! ## Lists that grow -/

/-- What becomes of a list of canonical plugins: entries are added behind the old ones, each with
all its ids, and under no display name that is taken. -/
structure Plugin.Grows (ps qs : List Plugin) : Prop where
  behind : ∃ added, qs = ps ++ added ∧ ∀ p ∈ added, p.Resolved
  names : (ps.map Plugin.name).Nodup → (qs.map Plugin.name).Nodup

namespace Plugin.Grows

variable {ps qs rs : List Plugin} {p : Plugin}

theorem refl (ps : List Plugin) : Grows ps ps :=
  ⟨⟨[], (List.append_nil ps).symm, fun _ hp => absurd hp List.not_mem_nil⟩, fun hnodup => hnodup⟩

theorem trans (h : Grows ps qs) (h' : Grows qs rs) : Grows ps rs := by
  obtain ⟨added, rfl, hadded⟩ := h.behind
  obtain ⟨added', rfl, hadded'⟩ := h'.behind
  constructor
  · refine ⟨added ++ added', List.append_assoc _ _ _, ?_⟩
    intro p hp
    rcases List.mem_append.mp hp with hp | hp
    · exact hadded p hp
    · exact hadded' p hp
  · intro hnodup
    exact h'.names (h.names hnodup)

/-- What had a match has one in the longer list. -/
theorem isSome_positionIn? (h : Grows ps qs) (hmatch : (p.positionIn? ps).isSome = true) :
    (p.positionIn? qs).isSome = true := by
  obtain ⟨added, rfl, -⟩ := h.behind
  exact isSome_positionIn?_append hmatch added

end Plugin.Grows

namespace Records

/-! ## One report -/

section recording
variable {newId : Nat → String} {known ps : List Plugin} {p : Plugin}

/-- The copy of a plugin without a match is a newcomer. -/
theorem grows_append_canonical (serial : Nat) (hnone : p.positionIn? known = none) :
    Plugin.Grows known (known ++ [canonical newId serial p]) := by
  constructor
  · refine ⟨[canonical newId serial p], rfl, ?_⟩
    intro q hq
    rw [List.mem_singleton.mp hq]
    exact resolved_canonical serial p
  · intro hnodup
    -- whoever bears the display name would be a match
    have hnew : p.name ∉ known.map Plugin.name := by
      intro hmem
      obtain ⟨q, hq, hname⟩ := List.mem_map.mp hmem
      have hmatch := Plugin.isSome_positionIn?_of_name hq hname
      rw [hnone] at hmatch
      cases hmatch
    rw [List.map_append, List.map_singleton]
    exact hnodup.append (List.nodup_singleton _) (List.disjoint_singleton.mpr hnew)

theorem grows_recordAll (serial : Nat) (known ps : List Plugin) :
    Plugin.Grows known (recordAll newId serial known ps).1 := by
  -- each plugin is looked up in the list that the ones before it have left
  induction ps generalizing serial known with
  | nil => exact .refl known
  | cons p ps ih =>
    unfold recordAll
    split
    · exact ih serial known
    · next hnone => exact (grows_append_canonical serial hnone).trans (ih _ _)

/-- Whatever is reported has a match afterwards. -/
theorem isSome_positionIn?_recordAll (serial : Nat) (known : List Plugin) :
    ∀ p ∈ ps, (p.positionIn? (recordAll newId serial known ps).1).isSome = true := by
  -- what is on record grows, so the induction is for every list that is on record already
  induction ps generalizing serial known with
  | nil =>
    intro p hp
    exact absurd hp List.not_mem_nil
  | cons q qs ih =>
    unfold recordAll
    split
    · next i hplace =>
      intro p hp
      rcases List.mem_cons.mp hp with rfl | hp
      · -- a match is not lost again while the rest is recorded
        have hmatch : (p.positionIn? known).isSome = true := Option.isSome_of_eq_some hplace
        exact (grows_recordAll serial known qs).isSome_positionIn? hmatch
      · exact ih serial known p hp
    · intro p hp
      rcases List.mem_cons.mp hp with rfl | hp
      · -- its own copy bears its display name
        have hcopy : canonical newId serial p ∈ known ++ [canonical newId serial p] :=
          List.mem_append_right known (List.mem_singleton_self _)
        exact (grows_recordAll _ _ qs).isSome_positionIn?
          (Plugin.isSome_positionIn?_of_name hcopy rfl)
      · exact ih _ _ p hp

end recording

/-- Putting back what is found changes nothing. -/
theorem putHost_of_find? {e : HostEntry} {hs : List HostEntry}
    (h : hs.find? (fun h => h.host.id == e.host.id) = some e) : putHost e hs = hs := by
  induction hs with
  | nil => cases h
  | cons x xs ih =>
    unfold putHost
    by_cases hid : x.host.id = e.host.id
    · simp only [List.find?_cons, hid, beq_self_eq_true, Option.some_inj] at h
      rw [if_pos hid, h]
    · simp only [List.find?_cons, beq_false_of_ne hid] at h
      rw [if_neg hid, ih h]

/-! ## Runs -/

/-- What a host reports. -/
structure Report where
  hostId : String
  plugins : List Plugin
deriving DecidableEq, Repr

/-- The records after a report; a refused one leaves them as they are. -/
def after (r : Records) (report : Report) : Records :=
  match r.sync report.hostId report.plugins with
  | .ok (r', _) => r'
  | .error _ => r

/-- The records after reports, one after another. -/
def afterAll (r : Records) (reports : List Report) : Records := reports.foldl after r

/-- What a report does to the records. -/
structure Takes (r : Records) (report : Report) : Prop where
  /-- A host that is not on record is refused. -/
  unknown : r.entry? report.hostId = none →
    r.sync report.hostId report.plugins = .error ⟨"unknown host " ++ report.hostId, []⟩ ∧
      r.after report = r
  /-- A host on record is given its list, in which everything reported has a match. -/
  known : (r.entry? report.hostId).isSome = true →
    r.sync report.hostId report.plugins =
        .ok (r.after report, (r.after report).pluginsOf report.hostId) ∧
      ∀ p ∈ report.plugins,
        (p.positionIn? ((r.after report).pluginsOf report.hostId)).isSome = true
  /-- Nothing but the list of this host is concerned. -/
  same : r.SameBut report.hostId (r.after report)
  /-- The list grows. -/
  grows : Plugin.Grows (r.pluginsOf report.hostId) ((r.after report).pluginsOf report.hostId)
  /-- The same report again changes nothing at all. -/
  again : (r.after report).after report = r.after report

section reports
variable {r : Records} {report : Report} {hostId : String}

theorem after_of_unknown (h : r.entry? report.hostId = none) :
    r.sync report.hostId report.plugins = .error ⟨"unknown host " ++ report.hostId, []⟩ ∧
      r.after report = r := by
  have hsync : r.sync report.hostId report.plugins =
      .error ⟨"unknown host " ++ report.hostId, []⟩ := by
    unfold sync
    rw [h]
  refine ⟨hsync, ?_⟩
  unfold after
  rw [hsync]

/-- The list of a host stands in its entry. -/
theorem pluginsOf_eq {e : HostEntry} (h : r.entry? hostId = some e) :
    r.pluginsOf hostId = e.host.plugins := by
  unfold pluginsOf host?
  rw [h]
  rfl

/-- The list of a host depends on its entry alone. -/
theorem pluginsOf_congr {r' : Records} (h : r'.entry? hostId = r.entry? hostId) :
    r'.pluginsOf hostId = r.pluginsOf hostId := by
  unfold pluginsOf host?
  rw [h]

/-- A report of what has a match already leaves the very same records. -/
theorem after_of_matched
    (h : ∀ p ∈ report.plugins, (p.positionIn? (r.pluginsOf report.hostId)).isSome = true) :
    r.after report = r := by
  match hentry : r.entry? report.hostId with
  | none => exact (after_of_unknown hentry).2
  | some e =>
    obtain hid := id_of_entry? hentry
    rw [pluginsOf_eq hentry] at h
    have hput : putHost e r.hosts = r.hosts := by
      apply putHost_of_find?
      rw [hid]
      exact hentry
    unfold after sync
    simp only [hentry, recordAll_of_matched r.issued h, hput]

/-- **One report.**  It is refused for a host that is not on record; else it adds to the list of the
host what has no match there. -/
theorem takes (r : Records) (report : Report) : r.Takes report := by
  match hentry : r.entry? report.hostId with
  | none =>
    obtain ⟨hsync, hafter⟩ := after_of_unknown hentry
    constructor
    case unknown => exact fun _ => ⟨hsync, hafter⟩
    case known =>
      intro hknown
      rw [hentry] at hknown
      cases hknown
    case same =>
      rw [hafter]
      refine ⟨rfl, rfl, fun _ _ => rfl, ?_⟩
      intro e he
      rw [hentry] at he
      cases he
    case grows =>
      rw [hafter]
      exact .refl _
    case again => rw [hafter, hafter]
  | some e =>
    obtain ⟨r', hsync, hsame⟩ := sync_eq_ok hentry report.plugins
    have hhost : r.host? report.hostId = some e.host := by
      unfold host?
      rw [hentry]
      rfl
    have hafter : r.after report = r' := by
      unfold after
      rw [hsync]
    have hlist : r'.pluginsOf report.hostId =
        (recordAll r.newId r.issued (r.pluginsOf report.hostId) report.plugins).1 := by
      rw [pluginsOf_eq hentry]
      exact eq_of_sync hhost hsync
    have hmatched : ∀ p ∈ report.plugins,
        (p.positionIn? (r'.pluginsOf report.hostId)).isSome = true := by
      rw [hlist]
      exact isSome_positionIn?_recordAll _ _
    constructor
    case unknown =>
      intro hnone
      rw [hentry] at hnone
      cases hnone
    case known =>
      rw [hafter]
      exact fun _ => ⟨hsync, hmatched⟩
    case same =>
      rw [hafter]
      exact hsame
    case grows =>
      rw [hafter, hlist]
      exact grows_recordAll _ _ _
    case again =>
      -- everything reported has a match now, so that nothing is left to record
      rw [hafter]
      exact after_of_matched hmatched

/-- A report concerns no other host. -/
theorem entry?_after_of_ne (h : hostId ≠ report.hostId) :
    entry? (r.after report) hostId = r.entry? hostId :=
  (takes r report).same.others hostId h

/-- A report lets every list grow. -/
theorem grows_after (r : Records) (report : Report) (hostId : String) :
    Plugin.Grows (r.pluginsOf hostId) ((r.after report).pluginsOf hostId) := by
  by_cases hid : hostId = report.hostId
  · rw [hid]
    exact (takes r report).grows
  · rw [pluginsOf_congr (entry?_after_of_ne hid)]
    exact .refl _

end reports

theorem grows_afterAll (r : Records) (reports : List Report) (hostId : String) :
    Plugin.Grows (r.pluginsOf hostId) ((r.afterAll reports).pluginsOf hostId) := by
  induction reports generalizing r with
  | nil => exact .refl _
  | cons report reports ih => exact (grows_after r report hostId).trans (ih (r.after report))

theorem entry?_afterAll (r : Records) {reports : List Report} {hostId : String}
    (h : ∀ report ∈ reports, hostId ≠ report.hostId) :
    entry? (r.afterAll reports) hostId = r.entry? hostId := by
  induction reports generalizing r with
  | nil => rfl
  | cons report reports ih =>
    obtain ⟨hfirst, hrest⟩ := List.forall_mem_cons.mp h
    calc entry? (r.afterAll (report :: reports)) hostId
        = entry? ((r.after report).afterAll reports) hostId := rfl
      _ = entry? (r.after report) hostId := ih (r.after report) hrest
      _ = r.entry? hostId := entry?_after_of_ne hfirst

/-- **Canonical lists are stable.**  Over any run of reports the list of a host only grows, and the
entry of a host that no report names stays as it is; and whatever the run was, the next report is
taken as every report is. -/
theorem lists_stable (r : Records) (reports : List Report) :
    (∀ hostId, Plugin.Grows (r.pluginsOf hostId) ((r.afterAll reports).pluginsOf hostId)) ∧
    (∀ hostId, (∀ report ∈ reports, hostId ≠ report.hostId) →
      entry? (r.afterAll reports) hostId = r.entry? hostId) ∧
    ∀ report, (r.afterAll reports).Takes report :=
  ⟨grows_afterAll r reports, fun _ h => entry?_afterAll r h, takes (r.afterAll reports)⟩

end Records

end Coordination
