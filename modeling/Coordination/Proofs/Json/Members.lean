import Coordination.Json.Document
import Mathlib.Data.List.Induction
/-!
# Members of objects

Members are kept in the order of their keys, whatever the order in which they were put.  So a list
of members whose keys ascend is kept as it is, and a key finds the last value that was put under it.
A record that is written as an object finds its fields again by their names.
-/

namespace Coordination.Json

/-- The keys ascend, so that none occurs twice. -/
def Members.Ascending (ms : Members) : Prop := ms.Pairwise fun m m' => m.1 < m'.1

namespace Members

/-! ## Order of the keys -/

/-- The member put, and those that were there. -/
theorem mem_insert {key : String} {value : Value} {ms : Members} {m : String × Value}
    (h : m ∈ insert key value ms) : m = (key, value) ∨ m ∈ ms := by
  induction ms with
  | nil => exact .inl (List.mem_singleton.mp h)
  | cons m' ms ih =>
    obtain ⟨k, v⟩ := m'
    simp only [insert] at h
    split at h
    · exact List.mem_cons.mp h
    · split at h
      · exact (List.mem_cons.mp h).imp_right fun hm => List.mem_cons_of_mem _ hm
      · rcases List.mem_cons.mp h with rfl | hm
        · exact .inr List.mem_cons_self
        · exact (ih hm).imp_right fun hm => List.mem_cons_of_mem _ hm

theorem Ascending.insert {ms : Members} (h : ms.Ascending) (key : String) (value : Value) :
    (Members.insert key value ms).Ascending := by
  induction ms with
  | nil => exact List.pairwise_singleton _ _
  | cons m ms ih =>
    obtain ⟨k, v⟩ := m
    obtain ⟨hfirst, hrest⟩ := List.pairwise_cons.mp h
    simp only [Members.insert]
    -- in front of the first greater key, in place of an equal one, or further back
    split
    · next hlt =>
      refine List.pairwise_cons.mpr ⟨fun m' hm' => ?_, h⟩
      rcases List.mem_cons.mp hm' with rfl | hm'
      · exact hlt
      · exact String.lt_trans hlt (hfirst m' hm')
    · split
      · next heq =>
        subst heq
        exact List.pairwise_cons.mpr ⟨hfirst, hrest⟩
      · next hnlt hne =>
        refine List.pairwise_cons.mpr ⟨fun m' hm' => ?_, ih hrest⟩
        rcases mem_insert hm' with rfl | hm'
        · exact Std.lt_of_le_of_ne (String.not_lt.mp hnlt) (Ne.symm hne)
        · exact hfirst m' hm'

/-- A member whose key is above all others comes last. -/
theorem insert_of_forall_lt {key : String} {ms : Members} (h : ∀ m ∈ ms, m.1 < key)
    (value : Value) : insert key value ms = ms ++ [(key, value)] := by
  induction ms with
  | nil => rfl
  | cons m ms ih =>
    obtain ⟨k, v⟩ := m
    have hlt : k < key := h (k, v) List.mem_cons_self
    simp only [insert]
    rw [if_neg (String.lt_asymm hlt), if_neg (by rintro rfl; exact String.lt_irrefl _ hlt),
      ih fun m hm => h m (List.mem_cons_of_mem _ hm)]
    rfl

theorem ofList_concat (l : List (String × Value)) (m : String × Value) :
    ofList (l ++ [m]) = insert m.1 m.2 (ofList l) := by
  simp [ofList]

/-- Members given in any order are kept in the order of their keys. -/
theorem ascending_ofList (l : List (String × Value)) : (ofList l).Ascending := by
  induction l using List.reverseRecOn with
  | nil => exact .nil
  | append_singleton l m ih =>
    rw [ofList_concat]
    exact ih.insert _ _

/-- Every member kept is one of those given. -/
theorem mem_of_mem_ofList {l : List (String × Value)} {m : String × Value} (h : m ∈ ofList l) :
    m ∈ l := by
  induction l using List.reverseRecOn with
  | nil => exact h
  | append_singleton l m' ih =>
    rw [ofList_concat] at h
    rcases mem_insert h with rfl | h
    · simp
    · exact List.mem_append_left _ (ih h)

/-- Members given in the order of their keys are kept as they are. -/
theorem ofList_of_ascending {ms : Members} (h : ms.Ascending) : ofList ms = ms := by
  induction ms using List.reverseRecOn with
  | nil => rfl
  | append_singleton ms m ih =>
    obtain ⟨hms, -, hlast⟩ := List.pairwise_append.mp h
    rw [ofList_concat, ih hms,
      insert_of_forall_lt fun m' hm' => hlast m' hm' m (List.mem_singleton_self m)]

/-! ## Values of keys -/

/-- Of the members given, the last one with a key tells its value. -/
theorem get?_ofList (l : List (String × Value)) (key : String) :
    (ofList l).get? key = l.reverse.lookup key := by
  -- from the back, as the last member is the one put last
  induction l using List.reverseRecOn with
  | nil => rfl
  | append_singleton l m ih =>
    rw [ofList_concat, List.reverse_concat, List.lookup_cons]
    by_cases hkey : key = m.1
    · simp [hkey, get?_insert_self]
    · rw [get?_insert_ne hkey, ih, beq_eq_false_iff_ne.mpr hkey]

/-- The value of a key is one of the values. -/
theorem mem_of_get? {ms : Members} {key : String} {v : Value} (h : ms.get? key = some v) :
    (key, v) ∈ ms := by
  induction ms with
  | nil => cases h
  | cons m ms ih =>
    obtain ⟨k, w⟩ := m
    rw [get?] at h
    split at h
    · next hkey =>
      rw [hkey, Option.some.inj h]
      exact List.mem_cons_self
    · exact List.mem_cons_of_mem _ (ih h)

end Members

/-! ## Members as fields -/

/-- Nothing is dropped from a list without repetition. -/
theorem eraseDups_of_nodup {names : List String} (h : names.Nodup) : names.eraseDups = names := by
  induction names with
  | nil => rfl
  | cons name names ih =>
    obtain ⟨hname, hnames⟩ := List.nodup_cons.mp h
    have hkeep : names.filter (fun other => !other == name) = names :=
      List.filter_eq_self.mpr fun other hother => by
        rw [Bool.not_eq_true', beq_eq_false_iff_ne]
        exact ne_of_mem_of_not_mem hother hname
    rw [List.eraseDups_cons, hkeep, ih hnames]

theorem Members.Ascending.nodup_keys {ms : Members} (h : ms.Ascending) :
    (ms.map (·.1)).Nodup :=
  List.pairwise_map.mpr (List.Pairwise.imp (fun hlt => String.ne_of_lt hlt) h)

namespace Document

/-- Members as they are written, each with its key. -/
def fieldsOf (ms : Members) : List (String × Document) := ms.map fun m => (m.1, ofValue m.2)

/-- Written members all have a text for their key. -/
theorem mapM_ofMembers (ms : Members) :
    (ofMembers ms).mapM (fun m => m.1.map fun k => (k, m.2)) = some (fieldsOf ms) := by
  induction ms with
  | nil => rfl
  | cons m ms ih =>
    rw [ofMembers, List.mapM_cons, ih]
    rfl

/-- Among the known fields a known name is looked up as among the members. -/
theorem lookup_filter_fieldsOf {names : List String} {key : String} (h : key ∈ names)
    (ms : Members) : ((fieldsOf ms).filter fun m => names.contains m.1).lookup key =
      (ms.get? key).map ofValue := by
  induction ms with
  | nil => rfl
  | cons m ms ih =>
    obtain ⟨k, v⟩ := m
    by_cases hkey : key = k
    · subst hkey
      simp [fieldsOf, Members.get?, h]
    · have hget : Members.get? key ((k, v) :: ms) = Members.get? key ms := by
        simp [Members.get?, Ne.symm hkey]
      have hcons : fieldsOf ((k, v) :: ms) = (k, ofValue v) :: fieldsOf ms := rfl
      rw [hget, ← ih, hcons, List.filter_cons]
      split
      · rw [List.lookup_cons, beq_eq_false_iff_ne.mpr hkey]
      · rfl

/-- **The fields of a written record** are its members of known names: they are found by name, the
last one given first. -/
theorem fields?_ofMembers (names : List String) (l : List (String × Value)) :
    ∃ fields, fields? names (.ofValue (.ofMembers l)) = some fields ∧
      ∀ name ∈ names, fields.lookup name = (l.reverse.lookup name).map ofValue := by
  refine ⟨(fieldsOf (Members.ofList l)).filter fun m => names.contains m.1, ?_, ?_⟩
  · -- no key stands twice, so nothing is counted less for being there before
    have hkeys : (((fieldsOf (Members.ofList l)).filter
        fun m => names.contains m.1).map (·.1)).Nodup := by
      refine List.Nodup.sublist (List.filter_sublist.map _) ?_
      rw [fieldsOf, List.map_map]
      exact (Members.ascending_ofList l).nodup_keys
    rw [Value.ofMembers, ofValue, fields?]
    simp only [mapM_ofMembers, Option.bind_eq_bind, Option.bind_some, eraseDups_of_nodup hkeys,
      List.length_map, if_true]
  · intro name hname
    rw [lookup_filter_fieldsOf hname, Members.get?_ofList]

end Document

end Coordination.Json
