import Coordination.Proofs.Registry.Matching
/-!
# What a reconciliation writes

A canonical plugin with a match writes ids: its own to the match, and those of its functions to the
first function of each name.  Writes to one place overwrite each other, writes to different places
commute, and none of them touches anything but ids.  So only the last write to each place counts,
and writing everything once more changes nothing.
-/

namespace Coordination

namespace Registry

/-! ## Ids of functions -/

variable {name name' id id' : String}

/-- The later id for a name is the one that stays. -/
theorem setFunctionId_setFunctionId (name id id' : String) (fs : List Function) :
    setFunctionId name id (setFunctionId name id' fs) = setFunctionId name id fs := by
  induction fs with
  | nil => rfl
  | cons f fs ih =>
    by_cases hf : f.name = name
    · simp only [setFunctionId, if_pos hf]
    · simp only [setFunctionId, if_neg hf, ih]

/-- Ids for different names do not meet. -/
theorem setFunctionId_comm (h : name ≠ name') (id id' : String) (fs : List Function) :
    setFunctionId name id (setFunctionId name' id' fs) =
      setFunctionId name' id' (setFunctionId name id fs) := by
  induction fs with
  | nil => rfl
  | cons f fs ih =>
    by_cases hf : f.name = name
    · have hf' : f.name ≠ name' := fun heq => h (hf.symm.trans heq)
      simp only [setFunctionId, if_pos hf, if_neg hf']
    · by_cases hf' : f.name = name'
      · simp only [setFunctionId, if_neg hf, if_pos hf']
      · simp only [setFunctionId, if_neg hf, if_neg hf', ih]

/-- A name that no function has gets no id. -/
theorem setFunctionId_of_not_any {fs : List Function}
    (h : (fs.any fun f => f.name == name) = false) : setFunctionId name id fs = fs := by
  induction fs with
  | nil => rfl
  | cons f fs ih =>
    rw [List.any_cons, Bool.or_eq_false_iff, beq_eq_false_iff_ne] at h
    simp only [setFunctionId, if_neg h.1, ih h.2]

theorem map_setFunctionId {β : Type} {g : Function → β}
    (hg : ∀ f : Function, g { f with id := some id } = g f) (fs : List Function) :
    (setFunctionId name id fs).map g = fs.map g := by
  induction fs with
  | nil => rfl
  | cons f fs ih =>
    by_cases hf : f.name = name
    · simp only [setFunctionId, if_pos hf, List.map_cons, hg]
    · simp only [setFunctionId, if_neg hf, List.map_cons, ih]

end Registry

/-- The plugin with an id for itself, or for its first function of a name. -/
def Plugin.assign (p : Plugin) (function : Option String) (id : String) : Plugin :=
  match function with
  | none => { p with id := some id }
  | some name => { p with functions := Registry.setFunctionId name id p.functions }

/-- An id for a plugin of a list, or for the first function of a name in it. -/
structure Assignment where
  /-- The place of the plugin in the list. -/
  place : Nat
  /-- The name of the function, unless the id is for the plugin itself. -/
  function : Option String
  id : String

namespace Assignment

/-- What gets the id. -/
def target (a : Assignment) : Nat × Option String := (a.place, a.function)

def apply (ps : List Plugin) (a : Assignment) : List Plugin :=
  ps.modify a.place fun p => p.assign a.function a.id

def applyAll (ps : List Plugin) (as : List Assignment) : List Plugin := as.foldl apply ps

variable {a b : Assignment} {as bs : List Assignment} {ps qs : List Plugin}

theorem applyAll_append (ps : List Plugin) (as bs : List Assignment) :
    applyAll ps (as ++ bs) = applyAll (applyAll ps as) bs := List.foldl_append

/-! ## Only the last one counts -/

/-- Of two ids for one target the later stays. -/
theorem apply_apply_of_target_eq (h : a.target = b.target) (ps : List Plugin) :
    apply (apply ps a) b = apply ps b := by
  obtain ⟨hplace, hfunction⟩ := Prod.mk.inj h
  have hassign : ∀ p : Plugin, (p.assign a.function a.id).assign b.function b.id =
      p.assign b.function b.id := by
    intro p
    rw [hfunction]
    cases b.function with
    | none => rfl
    | some name =>
      exact congrArg (fun fs => { p with functions := fs })
        (Registry.setFunctionId_setFunctionId name b.id a.id p.functions)
  unfold apply
  rw [hplace, List.modify_modify_eq]
  exact congrArg _ (funext hassign)

/-- The order of ids for different targets does not matter. -/
theorem apply_comm (h : a.target ≠ b.target) (ps : List Plugin) :
    apply (apply ps a) b = apply (apply ps b) a := by
  unfold apply
  by_cases hplace : a.place = b.place
  · -- two targets within one plugin are the plugin and a function, or two functions
    have hfunction : a.function ≠ b.function := fun heq => h (Prod.ext hplace heq)
    have hassign : ∀ p : Plugin, (p.assign a.function a.id).assign b.function b.id =
        (p.assign b.function b.id).assign a.function a.id := by
      intro p
      cases ha : a.function with
      | none =>
        cases hb : b.function with
        | none => exact absurd (ha.trans hb.symm) hfunction
        | some name => rfl
      | some name =>
        cases hb : b.function with
        | none => rfl
        | some name' =>
          have hne : name' ≠ name := by
            intro heq
            rw [ha, hb, heq] at hfunction
            exact hfunction rfl
          exact congrArg (fun fs => { p with functions := fs })
            (Registry.setFunctionId_comm hne b.id a.id p.functions)
    rw [hplace, List.modify_modify_eq, List.modify_modify_eq]
    exact congrArg _ (funext hassign)
  · exact List.modify_modify_ne _ _ ps hplace

/-- An id that is overwritten later might as well not be assigned. -/
theorem applyAll_apply (h : a.target ∈ as.map target) (ps : List Plugin) :
    applyAll (apply ps a) as = applyAll ps as := by
  induction as generalizing ps with
  | nil => cases h
  | cons b bs ih =>
    show applyAll (apply (apply ps a) b) bs = applyAll (apply ps b) bs
    by_cases hsame : a.target = b.target
    · rw [apply_apply_of_target_eq hsame]
    · -- the assignment that overwrites this one comes after `b`
      have hlater : a.target ∈ bs.map target := by
        rcases List.mem_cons.mp h with heq | hmem
        · exact absurd heq hsame
        · exact hmem
      rw [apply_comm hsame, ih hlater]

/-- **Assigning everything once more changes nothing.** -/
theorem applyAll_applyAll (ps : List Plugin) (as : List Assignment) :
    applyAll (applyAll ps as) as = applyAll ps as := by
  -- of the first round, one assignment after another turns out to be overwritten
  have hround : ∀ bs : List Assignment, (∀ b ∈ bs, b.target ∈ as.map target) →
      ∀ ps, applyAll (applyAll ps bs) as = applyAll ps as := by
    intro bs
    induction bs with
    | nil => exact fun _ ps => rfl
    | cons b bs ih =>
      intro hbs ps
      show applyAll (applyAll (apply ps b) bs) as = applyAll ps as
      rw [ih (fun c hc => hbs c (List.mem_cons_of_mem b hc)),
        applyAll_apply (hbs b List.mem_cons_self)]
  exact hround as (fun b hb => List.mem_map_of_mem hb) ps

/-! ## Nothing but ids changes -/

theorem outline_assign (p : Plugin) (function : Option String) (id : String) :
    (p.assign function id).outline = p.outline := by
  cases function with
  | none => rfl
  | some name =>
    unfold Plugin.assign Plugin.outline
    dsimp only
    rw [Registry.map_setFunctionId fun _ => rfl]

theorem map_outline_apply (ps : List Plugin) (a : Assignment) :
    (apply ps a).map Plugin.outline = ps.map Plugin.outline := by
  apply List.ext_getElem?
  intro i
  unfold apply
  rw [List.getElem?_map, List.getElem?_map, List.getElem?_modify]
  cases ps[i]? with
  | none => rfl
  | some p =>
    show some (Plugin.outline (if a.place = i then p.assign a.function a.id else p)) = _
    by_cases hi : a.place = i
    · rw [if_pos hi, outline_assign]
      rfl
    · rw [if_neg hi]
      rfl

theorem map_outline_applyAll (ps : List Plugin) (as : List Assignment) :
    (applyAll ps as).map Plugin.outline = ps.map Plugin.outline := by
  induction as generalizing ps with
  | nil => rfl
  | cons a as ih => exact (ih (apply ps a)).trans (map_outline_apply ps a)

/-- Plugins behind those that get ids stay as they are. -/
theorem applyAll_append_left (h : ∀ a ∈ as, a.place < ps.length) (qs : List Plugin) :
    applyAll (ps ++ qs) as = applyAll ps as ++ qs := by
  induction as generalizing ps with
  | nil => rfl
  | cons a as ih =>
    have hhead : apply (ps ++ qs) a = apply ps a ++ qs := by
      have hlt : a.place < ps.length := h a List.mem_cons_self
      unfold apply
      rw [List.modify_eq_set_getElem?, List.modify_eq_set_getElem?,
        List.getElem?_append_left hlt, List.getElem?_eq_getElem hlt]
      exact List.set_append_left _ _ hlt
    have hlength : (apply ps a).length = ps.length := List.length_modify _ _ _
    show applyAll (apply (ps ++ qs) a) as = applyAll (apply ps a) as ++ qs
    rw [hhead, ih fun b hb => hlength.symm ▸ h b (List.mem_cons_of_mem a hb)]

end Assignment

/-! ## What one canonical plugin assigns -/

/-- The ids that a canonical plugin has for the plugin at a place. -/
def Plugin.assignments (remote : Plugin) (place : Nat) : List Assignment :=
  (remote.id.map fun id => ⟨place, none, id⟩).toList ++
    remote.functions.filterMap fun f => f.id.map fun id => ⟨place, some f.name, id⟩

namespace Registry

open Assignment

variable {ps qs : List Plugin} {remote here : Plugin} {i : Nat}

theorem place_of_mem_assignments {a : Assignment} (h : a ∈ remote.assignments i) :
    a.place = i := by
  rcases List.mem_append.mp h with hid | hfunction
  · obtain ⟨id, -, rfl⟩ := Option.map_eq_some_iff.mp (Option.mem_toList.mp hid)
    rfl
  · obtain ⟨f, -, hf⟩ := List.mem_filterMap.mp hfunction
    obtain ⟨id, -, rfl⟩ := Option.map_eq_some_iff.mp hf
    rfl

/-- Taking over the ids of functions assigns them one after another. -/
theorem resolveFunctions_eq (fs remotes : List Function) :
    (resolveFunctions fs remotes).1 =
      (remotes.filterMap fun f => f.id.map fun id => (f.name, id)).foldl
        (fun fs entry => setFunctionId entry.1 entry.2 fs) fs := by
  induction remotes generalizing fs with
  | nil => rfl
  | cons remote remotes ih =>
    cases hid : remote.id with
    | none => simp only [resolveFunctions, hid, List.filterMap_cons, Option.map_none, ih]
    | some id =>
      rw [List.filterMap_cons, hid]
      show (resolveFunctions fs (remote :: remotes)).1 = List.foldl _ (setFunctionId _ _ _) _
      cases hany : fs.any fun f => f.name == remote.name with
      | true => simp only [resolveFunctions, hid, hany, if_true, ih]
      | false =>
        rw [setFunctionId_of_not_any hany, ← ih]
        simp only [resolveFunctions, hid, hany]
        rfl

/-- Taking over the ids of a plugin assigns them one after another. -/
theorem resolvePlugin_eq (here remote : Plugin) (i : Nat) :
    (resolvePlugin here remote).1 =
      (remote.assignments i).foldl (fun p a => p.assign a.function a.id) here := by
  -- assignments of functions leave the id alone and go through the functions in order
  have hfunctions : ∀ (entries : List (String × String)) (p : Plugin),
      (entries.map fun entry => (⟨i, some entry.1, entry.2⟩ : Assignment)).foldl
        (fun p a => p.assign a.function a.id) p =
      { p with functions :=
          entries.foldl (fun fs entry => setFunctionId entry.1 entry.2 fs) p.functions } := by
    intro entries
    induction entries with
    | nil => exact fun p => rfl
    | cons entry entries ih => exact fun p => ih (p.assign (some entry.1) entry.2)
  have hmap : (remote.functions.filterMap fun f =>
        f.id.map fun id => (⟨i, some f.name, id⟩ : Assignment)) =
      (remote.functions.filterMap fun f => f.id.map fun id => (f.name, id)).map
        fun entry => ⟨i, some entry.1, entry.2⟩ := by
    rw [List.map_filterMap]
    simp only [Option.map_map]
    rfl
  unfold Plugin.assignments
  rw [List.foldl_append, hmap, hfunctions, ← resolveFunctions_eq]
  unfold resolvePlugin
  cases remote.id with
  | none => rfl
  | some id => rfl

/-- Assignments to one place change the plugin at this place. -/
theorem applyAll_of_place {as : List Assignment} (has : ∀ a ∈ as, a.place = i) (ps : List Plugin) :
    applyAll ps as = ps.modify i fun p => as.foldl (fun p a => p.assign a.function a.id) p := by
  induction as generalizing ps with
  | nil => exact (List.modify_id i ps).symm
  | cons a as ih =>
    have hplace : a.place = i := has a List.mem_cons_self
    show applyAll (apply ps a) as = _
    rw [ih (fun b hb => has b (List.mem_cons_of_mem a hb))]
    unfold apply
    rw [hplace, List.modify_modify_eq]
    rfl

/-- A canonical plugin with a match gives its ids to the match. -/
theorem reconcileOne_of_match (h : remote.positionIn? ps = some i) :
    (reconcileOne ps remote).1 = ps.modify i (fun here => (resolvePlugin here remote).1) ∧
      (reconcileOne ps remote).2.matched = 1 ∧ (reconcileOne ps remote).2.adopted = 0 := by
  have hlt : i < ps.length := Plugin.lt_length_of_positionIn? h
  have hhere : ps[i]? = some ps[i] := List.getElem?_eq_getElem hlt
  unfold reconcileOne
  rw [List.modify_eq_set_getElem?, h]
  simp only [hhere]
  exact ⟨rfl, trivial, trivial⟩

/-- To give ids is to assign them, one after another. -/
theorem applyAll_assignments (ps : List Plugin) (remote : Plugin) (i : Nat) :
    applyAll ps (remote.assignments i) = ps.modify i fun here => (resolvePlugin here remote).1 := by
  rw [applyAll_of_place fun a ha => place_of_mem_assignments ha]
  exact congrArg _ (funext fun here => (resolvePlugin_eq here remote i).symm)

/-- A canonical plugin without a match is added. -/
theorem reconcileOne_of_none (h : remote.positionIn? ps = none) :
    reconcileOne ps remote = (ps ++ [remote], { adopted := 1 }) := by
  unfold reconcileOne
  rw [h]

end Registry

end Coordination
