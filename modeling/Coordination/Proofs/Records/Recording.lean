import Coordination.Proofs.Records.Queries
import Coordination.Proofs.Registry.Registration
/-!
# What recording does to the list of a host

A plugin whose names are new is recorded as a copy that differs from it in ids alone, and has all of
them.  A plugin that has a match is not recorded.  So a first report is copied as a whole, and a
report of what is on record changes nothing.
-/

namespace Coordination

namespace Records

variable {newId : Nat → String} {known ps : List Plugin} {p : Plugin}

/-! ## Canonical copies -/

/-- Functions with fresh ids are the same functions. -/
theorem map_outline_assignFunctionIds (serial : Nat) (fs : List Function) :
    (assignFunctionIds newId serial fs).map Function.outline = fs.map Function.outline := by
  induction fs generalizing serial with
  | nil => rfl
  | cons f fs ih =>
    rw [assignFunctionIds, List.map_cons, List.map_cons, ih]
    rfl

theorem isSome_id_of_mem_assignFunctionIds {serial : Nat} {fs : List Function} {f : Function}
    (h : f ∈ assignFunctionIds newId serial fs) : f.id.isSome = true := by
  induction fs generalizing serial with
  | nil => cases h
  | cons g gs ih =>
    rcases List.mem_cons.mp h with rfl | hrest
    · rfl
    · exact ih hrest

/-- The copy of a plugin with a unique name differs from it in ids alone. -/
theorem outline_canonical (h : p.uniqueName ≠ none) (serial : Nat) :
    (canonical newId serial p).outline = p.outline := by
  obtain ⟨unique, hunique⟩ := Option.ne_none_iff_exists'.mp h
  unfold canonical Plugin.outline
  dsimp only
  rw [map_outline_assignFunctionIds, hunique, Option.some_or]

theorem resolved_canonical (serial : Nat) (p : Plugin) : (canonical newId serial p).Resolved :=
  ⟨rfl, fun _ hf => isSome_id_of_mem_assignFunctionIds hf⟩

/-! ## Reports -/

/-- Plugins with distinct names that are all new are recorded, each as its copy. -/
theorem recordAll_of_distinct (serial : Nat) (h : Plugin.Distinct (known ++ ps)) :
    ∃ added, (recordAll newId serial known ps).1 = known ++ added ∧
      added.map Plugin.outline = ps.map Plugin.outline ∧ ∀ c ∈ added, c.Resolved := by
  induction ps generalizing serial known with
  | nil => exact ⟨[], (List.append_nil known).symm, rfl, fun c hc => absurd hc List.not_mem_nil⟩
  | cons p ps ih =>
    have hmem : p ∈ known ++ p :: ps := List.mem_append_right known List.mem_cons_self
    have hcopy : (canonical newId serial p).outline = p.outline :=
      outline_canonical (h.named p hmem) serial
    have hnone : p.positionIn? known = none := by
      obtain ⟨-, huniqueNames, hnames, -⟩ := h
      rw [List.map_append, List.nodup_append] at huniqueNames hnames
      apply Plugin.positionIn?_eq_none
      · intro q hq
        exact huniqueNames.2.2 _ (List.mem_map_of_mem hq) _ (List.mem_map_of_mem List.mem_cons_self)
      · intro q hq
        exact hnames.2.2 _ (List.mem_map_of_mem hq) _ (List.mem_map_of_mem List.mem_cons_self)
    -- the copy bears the names of the plugin from now on
    have hnext : Plugin.Distinct ((known ++ [canonical newId serial p]) ++ ps) := by
      refine h.congr ?_
      rw [List.append_assoc, List.singleton_append, List.map_append, List.map_append,
        List.map_cons, List.map_cons, hcopy]
    obtain ⟨added, hlist, houtline, hresolved⟩ := ih (serial + 1 + p.functions.length) hnext
    refine ⟨canonical newId serial p :: added, ?_, ?_, ?_⟩
    · simp only [recordAll, hnone]
      rw [hlist, List.append_assoc]
      rfl
    · rw [List.map_cons, List.map_cons, hcopy, houtline]
    · intro c hc
      rcases List.mem_cons.mp hc with rfl | hc
      · exact resolved_canonical serial p
      · exact hresolved c hc

/-- Plugins that all have a match change nothing. -/
theorem recordAll_of_matched (serial : Nat)
    (h : ∀ p ∈ ps, (p.positionIn? known).isSome = true) :
    recordAll newId serial known ps = (known, serial) := by
  induction ps with
  | nil => rfl
  | cons p ps ih =>
    obtain ⟨i, hplace⟩ := Option.isSome_iff_exists.mp (h p List.mem_cons_self)
    simp only [recordAll, hplace]
    exact ih fun q hq => h q (List.mem_cons_of_mem p hq)

theorem eq_of_sync {r r' : Records} {hostId : String} {host : HostModel}
    {reported plugins : List Plugin} (hhost : r.host? hostId = some host)
    (hsync : r.sync hostId reported = .ok (r', plugins)) :
    plugins = (recordAll r.newId r.issued host.plugins reported).1 := by
  obtain ⟨e, hentry, rfl⟩ := Option.map_eq_some_iff.mp hhost
  unfold sync at hsync
  rw [hentry] at hsync
  cases hsync
  rfl

end Records

end Coordination
