import Coordination.Topic.Generator
import Mathlib.Data.List.Basic
/-!
# Whose messages a filter takes

A filter of a host, an agent or the authority takes exactly the messages addressed to it, from
whatever sender.  This needs ids that are single segments and are not spelled like the segments with
a meaning of their own.
-/

namespace Coordination

/-! ## Cutting text that was put together -/

namespace Text

theorem splitChars_append (sep : Char) (cs ds : List Char) :
    splitChars sep (cs ++ sep :: ds) = splitChars sep cs ++ splitChars sep ds := by
  induction cs with
  | nil => simp [splitChars]
  | cons c cs ih =>
    by_cases hc : c = sep
    · simp [splitChars, hc, ih]
    · cases hpieces : splitChars sep cs with
      | nil => exact absurd hpieces (splitChars_ne_nil sep cs)
      | cons piece pieces => simp [splitChars, hc, ih, hpieces]

/-- Text put together with a separator is cut there, and elsewhere as its parts are. -/
theorem split_append_split (s t : String) :
    split '/' (s ++ "/" ++ t) = split '/' s ++ split '/' t := by
  have hchars : (s ++ "/" ++ t).toList = s.toList ++ '/' :: t.toList := by simp
  unfold split
  rw [hchars, splitChars_append, List.map_append]

theorem split_ne_nil (sep : Char) (s : String) : split sep s ≠ [] := by
  unfold split
  rw [Ne, List.map_eq_nil_iff]
  exact splitChars_ne_nil sep s.toList

theorem length_split_pos (sep : Char) (s : String) : 0 < (split sep s).length :=
  List.length_pos_iff.mpr (split_ne_nil sep s)

/-- Text without the separator that is put together is cut where it was. -/
theorem split_join {sep : Char} {pieces : List String} (hne : pieces ≠ [])
    (h : ∀ piece ∈ pieces, sep ∉ piece.toList) : split sep (join sep pieces) = pieces := by
  unfold split join
  rw [String.toList_ofList, splitChars_joinChars (by simpa using hne) (by simpa using h),
    List.map_map]
  exact List.map_id'' (fun _ => String.ofList_toList) _

theorem split_injective (sep : Char) : Function.Injective (split sep) := by
  intro s t h
  rw [← join_split sep s, h, join_split]

/-- A text that is one piece is this piece. -/
theorem eq_of_split_eq_singleton {sep : Char} {s piece : String} (h : split sep s = [piece]) :
    s = piece := by
  have hjoin := join_split sep s
  rw [h] at hjoin
  rw [← hjoin]
  simp [join, joinChars]

/-- What follows the lead in a text that was put behind it. -/
theorem afterLead?_append (lead s : String) : afterLead? lead (lead ++ s) = some s := by
  have hprefix : List.isPrefixOf? lead.toList (lead.toList ++ s.toList) = some s.toList :=
    List.isPrefixOf?_eq_some_iff_append_eq.mpr rfl
  unfold afterLead?
  rw [String.toList_append, hprefix, Option.map_some, String.ofList_toList]

end Text

namespace Topic

/-! ## Matching -/

theorem split_event (sender authority host agent : String) :
    Text.split '/' (event sender authority host agent) =
      "event" :: (Text.split '/' sender ++ Text.split '/' authority ++ Text.split '/' host ++
        Text.split '/' agent) := by
  have hlead : event sender authority host agent =
      "event" ++ "/" ++ (sender ++ "/" ++ authority ++ "/" ++ host ++ "/" ++ agent) := by
    simp [event, eventLead, String.append_assoc]
  have hevent : Text.split '/' "event" = ["event"] := Text.split_of_not_mem (by decide)
  rw [hlead, Text.split_append_split, hevent, Text.split_append_split, Text.split_append_split,
    Text.split_append_split]
  rfl

theorem segmentMatches_any (segment : String) : segmentMatches any segment = true := rfl

theorem segmentMatches_self (segment : String) : segmentMatches segment segment = true := by
  unfold segmentMatches
  rw [beq_self_eq_true, Bool.or_true]

theorem segmentMatches_iff {filter segment : String} (h : filter ≠ any) :
    segmentMatches filter segment = true ↔ segment = filter := by
  unfold segmentMatches
  rw [Bool.or_eq_true, beq_iff_eq, beq_iff_eq]
  constructor
  · rintro (heq | heq)
    · exact absurd heq h
    · exact heq.symm
  · exact fun heq => .inr heq.symm

/-- Segments that a filter and a topic begin with alike do not decide. -/
theorem segmentsMatch_append_left (lead fs ts : List String) :
    segmentsMatch (lead ++ fs) (lead ++ ts) = segmentsMatch fs ts := by
  induction lead with
  | nil => rfl
  | cons segment lead ih =>
    rw [List.cons_append, List.cons_append, segmentsMatch, segmentMatches_self, Bool.true_and, ih]

/-- A filter without a wildcard takes itself and nothing else. -/
theorem segmentsMatch_iff_eq {fs ts : List String} (h : any ∉ fs) :
    segmentsMatch fs ts = true ↔ ts = fs := by
  induction fs generalizing ts with
  | nil => cases ts <;> simp [segmentsMatch]
  | cons f fs ih =>
    obtain ⟨hf, hfs⟩ := not_or.mp (mt List.mem_cons.mpr h)
    cases ts with
    | nil => simp [segmentsMatch]
    | cons t ts =>
      rw [segmentsMatch, Bool.and_eq_true, segmentMatches_iff (Ne.symm hf), ih hfs,
        List.cons.injEq]

/-- A filter takes what differs from it at its wildcards only. -/
theorem segmentsMatch_map {fs : List String} {f : String → String}
    (hf : ∀ s ∈ fs, s ≠ any → f s = s) : segmentsMatch fs (fs.map f) = true := by
  induction fs with
  | nil => rfl
  | cons s fs ih =>
    rw [List.map_cons, segmentsMatch, ih fun s' hs' => hf s' (List.mem_cons_of_mem s hs'),
      Bool.and_true]
    by_cases hs : s = any
    · rw [hs, segmentMatches_any]
    · rw [hf s List.mem_cons_self hs, segmentMatches_self]

/-- Two segments of a filter take two segments of a topic, so both parts of the topic are one
segment. -/
theorem segmentsMatch_pair_iff {h a h' a' : String} (hh : h ≠ any) (ha : a ≠ any)
    (hhost : '/' ∉ h.toList) (hagent : '/' ∉ a.toList) :
    segmentsMatch [h, a] (Text.split '/' h' ++ Text.split '/' a') = true ↔ h' = h ∧ a' = a := by
  have hany : any ∉ [h, a] := by simp [hh.symm, ha.symm]
  rw [segmentsMatch_iff_eq hany]
  constructor
  · intro hsegments
    -- two names fill two segments only if neither of them holds a slash
    have hlength := congrArg List.length hsegments
    rw [List.length_append] at hlength
    have hhostLength := Text.length_split_pos '/' h'
    have hagentLength := Text.length_split_pos '/' a'
    obtain ⟨s, hs⟩ := List.length_eq_one_iff.mp
      (by simp at hlength; omega : (Text.split '/' h').length = 1)
    rw [hs, List.singleton_append, List.cons.injEq] at hsegments
    exact ⟨hsegments.1 ▸ Text.eq_of_split_eq_singleton hs,
      Text.eq_of_split_eq_singleton hsegments.2⟩
  · rintro ⟨rfl, rfl⟩
    rw [Text.split_of_not_mem hhost, Text.split_of_not_mem hagent]
    rfl

/-- A filter for any sender takes the topics with its own host and agent. -/
theorem matches_event_iff {sender authority host agent host' agent' : String}
    (hsender : '/' ∉ sender.toList) (hauthority : '/' ∉ authority.toList)
    (hhost : '/' ∉ host.toList) (hagent : '/' ∉ agent.toList)
    (hhostAny : host ≠ any) (hagentAny : agent ≠ any) :
    «matches» (event any authority host agent) (event sender authority host' agent') = true ↔
      host' = host ∧ agent' = agent := by
  have hany : Text.split '/' any = [any] := Text.split_of_not_mem (by decide)
  unfold «matches»
  rw [split_event, split_event, hany, Text.split_of_not_mem hsender,
    Text.split_of_not_mem hauthority, Text.split_of_not_mem hhost, Text.split_of_not_mem hagent]
  rw [← segmentsMatch_pair_iff hhostAny hagentAny hhost hagent]
  show (segmentMatches "event" "event" && (segmentMatches any sender &&
    (segmentMatches authority authority &&
      segmentsMatch [host, agent] (Text.split '/' host' ++ Text.split '/' agent')))) = true ↔ _
  rw [segmentMatches_any, segmentMatches_self, segmentMatches_self]
  rfl

/-! ## Ids that stand for themselves -/

/-- An id that stands for itself in a topic: it is one segment, and not one that stands for the
authority or for nobody. -/
structure Names (authorityId id : String) : Prop where
  slash_not_mem : '/' ∉ id.toList
  ne_absent : id ≠ absent
  ne_authority : id ≠ authorityId

instance (authorityId id : String) : Decidable (Names authorityId id) :=
  decidable_of_iff ('/' ∉ id.toList ∧ id ≠ absent ∧ id ≠ authorityId)
    ⟨fun ⟨hslash, habsent, hauthority⟩ => ⟨hslash, habsent, hauthority⟩,
     fun h => ⟨h.slash_not_mem, h.ne_absent, h.ne_authority⟩⟩

/-- Topics under one sender and one authority differ as their ends do. -/
theorem event_eq_event_iff {sender authority host agent host' agent' : String} :
    event sender authority host agent = event sender authority host' agent' ↔
      host ++ "/" ++ agent = host' ++ "/" ++ agent' := by
  simp [event, String.append_assoc]

/-! ## Senders -/

/-- A topic is parsed from the segments of its four parts. -/
theorem parse?_event (sender authority host agent : String) :
    Address.parse? (event sender authority host agent) =
      Address.ofSegments? (Text.split '/' sender ++ Text.split '/' authority ++
        Text.split '/' host ++ Text.split '/' agent) := by
  have hlead : event sender authority host agent =
      eventLead ++ (sender ++ "/" ++ authority ++ "/" ++ host ++ "/" ++ agent) := by
    simp [event, String.append_assoc]
  unfold Address.parse?
  rw [hlead, Text.afterLead?_append, Option.bind_some, Text.split_append_split,
    Text.split_append_split, Text.split_append_split]

/-- The sender of a topic of four segments is the one that the first segment names. -/
theorem senderOf_event {sender authority host agent : String}
    (hsender : '/' ∉ sender.toList) (hauthority : '/' ∉ authority.toList)
    (hhost : '/' ∉ host.toList) (hagent : '/' ∉ agent.toList)
    (hne : ¬ (sender = "" ∨ authority = "" ∨ host = "" ∨ agent = "")) :
    senderOf (event sender authority host agent) =
      if sender = absent then some authority else if sender = any then none else some sender := by
  unfold senderOf
  rw [parse?_event, Text.split_of_not_mem hsender, Text.split_of_not_mem hauthority,
    Text.split_of_not_mem hhost, Text.split_of_not_mem hagent]
  show (Address.ofSegments? [sender, authority, host, agent]).bind Address.senderId = _
  rw [Address.ofSegments?, if_neg hne]
  rfl

end Topic

end Coordination
