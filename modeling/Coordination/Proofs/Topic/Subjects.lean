import Coordination.Bus.Nats
import Coordination.Bus.Network
import Coordination.Proofs.Topic.Filters
/-!
# Subjects route as topics do

A server that knows subjects alone hands a publication to a subscription if their tokens agree.  The
token of a segment gives the segment back, holds no dot, and is the wildcard of the server only for
the wildcard of topics.  So the server hands over what a filter matches, and nothing else.
-/

namespace Coordination

namespace Topic.Subject

/-! ## Escapes -/

/-- There are nine reserved characters. -/
theorem isReserved_iff {c : Char} :
    isReserved c = true ↔ c ∈ ['%', '.', '*', '>', ' ', '\t', '\n', '\x0c', '\r'] := by
  simp [isReserved, or_assoc]

/-- The digits of a reserved character are those of its code. -/
theorem escapeCode?_of_isReserved {c : Char} (h : isReserved c = true) :
    escapeCode? (Text.Hex.upperDigit (c.toNat / 16)) (Text.Hex.upperDigit (c.toNat % 16)) =
      some c.toNat := by
  have hcodes : (['%', '.', '*', '>', ' ', '\t', '\n', '\x0c', '\r'].all fun c =>
      escapeCode? (Text.Hex.upperDigit (c.toNat / 16)) (Text.Hex.upperDigit (c.toNat % 16)) =
        some c.toNat) = true := by decide
  exact of_decide_eq_true (List.all_eq_true.mp hcodes c (isReserved_iff.mp h))

/-- What is escaped holds no dot and no star. -/
theorem not_reserved_of_mem_escapeChar {c d : Char} (h : d ∈ escapeChar c) : d ≠ '.' ∧ d ≠ '*' := by
  unfold escapeChar at h
  split at h
  · next hc =>
    have hdigits : (['%', '.', '*', '>', ' ', '\t', '\n', '\x0c', '\r'].all fun c =>
        ['%', Text.Hex.upperDigit (c.toNat / 16), Text.Hex.upperDigit (c.toNat % 16)].all fun d =>
          d ≠ '.' ∧ d ≠ '*') = true := by decide
    have hdigits := List.all_eq_true.mp hdigits c (isReserved_iff.mp hc)
    exact of_decide_eq_true (List.all_eq_true.mp hdigits d h)
  · next hc =>
    -- a character that stands for itself is not reserved
    obtain rfl := List.mem_singleton.mp h
    constructor
    · rintro rfl
      exact hc rfl
    · rintro rfl
      exact hc rfl

theorem unescapeChars_cons_of_ne {c : Char} (h : c ≠ '%') (cs : List Char) :
    unescapeChars (c :: cs) = c :: unescapeChars cs := by
  match cs with
  | [] => simp [unescapeChars]
  | [d] => simp [unescapeChars]
  | high :: low :: rest => rw [unescapeChars, if_neg h]

theorem unescapeChars_escape {high low : Char} {n : Nat} (h : escapeCode? high low = some n)
    (rest : List Char) :
    unescapeChars ('%' :: high :: low :: rest) = Char.ofNat n :: unescapeChars rest := by
  rw [unescapeChars, if_pos rfl, h]

theorem unescapeChars_escapeChars (cs : List Char) : unescapeChars (escapeChars cs) = cs := by
  induction cs with
  | nil => rfl
  | cons c cs ih =>
    have hcons : escapeChars (c :: cs) = escapeChar c ++ escapeChars cs := rfl
    rw [hcons]
    -- the percent sign is reserved itself, so that it never stands unescaped
    by_cases hc : isReserved c = true
    · rw [escapeChar, if_pos hc]
      show unescapeChars ('%' :: _ :: _ :: escapeChars cs) = c :: cs
      rw [unescapeChars_escape (escapeCode?_of_isReserved hc), Char.ofNat_toNat, ih]
    · have hpercent : c ≠ '%' := by
        rintro rfl
        exact hc rfl
      rw [escapeChar, if_neg hc]
      show unescapeChars (c :: escapeChars cs) = c :: cs
      rw [unescapeChars_cons_of_ne hpercent, ih]

/-! ## Tokens -/

/-- Only the wildcard has the token of a wildcard. -/
theorem ofSegment_eq_star_iff {segment : String} : ofSegment segment = "*" ↔ segment = any := by
  unfold ofSegment
  split
  · next hany => simp [hany]
  · next hany =>
    refine iff_of_false ?_ hany
    intro hstar
    -- the star would be a character of an escaped segment
    have hmem : '*' ∈ escapeChars segment.toList := by
      have hchars := congrArg String.toList hstar
      rw [String.toList_ofList] at hchars
      rw [hchars]
      decide
    obtain ⟨c, -, hc⟩ := List.mem_flatMap.mp hmem
    exact (not_reserved_of_mem_escapeChar hc).2 rfl

/-- A token is one token. -/
theorem dot_not_mem_ofSegment (segment : String) : '.' ∉ (ofSegment segment).toList := by
  unfold ofSegment
  split
  · decide
  · rw [String.toList_ofList]
    intro hmem
    obtain ⟨c, -, hc⟩ := List.mem_flatMap.mp hmem
    exact (not_reserved_of_mem_escapeChar hc).1 rfl

theorem ofSegment_injective : Function.Injective ofSegment := by
  intro s t heq
  by_cases hs : s = any
  · have hstar : ofSegment t = "*" := heq ▸ ofSegment_eq_star_iff.mpr hs
    rw [hs, ofSegment_eq_star_iff.mp hstar]
  · have ht : t ≠ any := by
      intro ht
      have hstar : ofSegment s = "*" := heq ▸ ofSegment_eq_star_iff.mpr ht
      exact hs (ofSegment_eq_star_iff.mp hstar)
    rw [ofSegment, ofSegment, if_neg hs, if_neg ht] at heq
    have hchars : escapeChars s.toList = escapeChars t.toList := by
      simpa using congrArg String.toList heq
    have hback := congrArg unescapeChars hchars
    rw [unescapeChars_escapeChars, unescapeChars_escapeChars] at hback
    exact String.toList_injective hback

/-- The tokens of a subject are those of the segments of its topic. -/
theorem split_toSubject (topic : String) :
    Text.split '.' (toSubject topic) = (Text.split '/' topic).map ofSegment := by
  unfold toSubject
  refine Text.split_join ?_ ?_
  · simpa using Text.split_ne_nil '/' topic
  · intro token htoken
    obtain ⟨segment, -, rfl⟩ := List.mem_map.mp htoken
    exact dot_not_mem_ofSegment segment

/-! ## Topics back from their subjects -/

/-- A token gives its segment back, except that the wildcard comes back as the character that stands
for it. -/
theorem toSegment_ofSegment (segment : String) :
    toSegment (ofSegment segment) = if segment = any then "*" else segment := by
  unfold ofSegment
  split
  · -- a star starts no escape
    decide
  · unfold toSegment
    rw [String.toList_ofList, unescapeChars_escapeChars, String.ofList_toList]

/-- What becomes of the segments of a topic on its way to a subject and back. -/
theorem split_ofSubject_toSubject (topic : String) :
    Text.split '/' (ofSubject (toSubject topic)) =
      (Text.split '/' topic).map fun segment => if segment = any then "*" else segment := by
  have hback : (Text.split '.' (toSubject topic)).map toSegment =
      (Text.split '/' topic).map fun segment => if segment = any then "*" else segment := by
    rw [split_toSubject, List.map_map]
    exact List.map_congr_left fun segment _ => toSegment_ofSegment segment
  unfold ofSubject
  rw [hback]
  refine Text.split_join ?_ ?_
  · simpa using Text.split_ne_nil '/' topic
  · intro segment hsegment
    obtain ⟨original, horiginal, rfl⟩ := List.mem_map.mp hsegment
    split
    · decide
    · exact Text.not_mem_of_mem_split horiginal

theorem toSubject_injective : Function.Injective toSubject := by
  intro s t heq
  have hsegments := congrArg (Text.split '.') heq
  rw [split_toSubject, split_toSubject] at hsegments
  exact Text.split_injective '/' (List.map_injective_iff.mpr ofSegment_injective hsegments)

/-- **A subject gives its topic back**, exactly if no segment of the topic is the wildcard; and with
the wildcard or without, no two topics have one subject. -/
theorem toSubject_invertible :
    (∀ topic, ofSubject (toSubject topic) = topic ↔ any ∉ Text.split '/' topic) ∧
      Function.Injective toSubject := by
  refine ⟨fun topic => ⟨fun hback hany => ?_, fun hany => ?_⟩, toSubject_injective⟩
  · -- a wildcard would have come back as another segment
    have hsegments := split_ofSubject_toSubject topic
    rw [hback] at hsegments
    have hmem : any ∈ (Text.split '/' topic).map fun segment =>
        if segment = any then "*" else segment := hsegments ▸ hany
    obtain ⟨segment, -, hsegment⟩ := List.mem_map.mp hmem
    split at hsegment
    · exact absurd hsegment (by decide)
    · next hne => exact hne hsegment
  · have hkept : ((Text.split '/' topic).map fun segment =>
        if segment = any then "*" else segment) = Text.split '/' topic := by
      refine (List.map_congr_left fun segment hsegment => if_neg ?_).trans (List.map_id _)
      rintro rfl
      exact hany hsegment
    exact Text.split_injective '/' ((split_ofSubject_toSubject topic).trans hkept)

/-- Escapes next to text that looks like one, beside characters of several bytes, come back; a
wildcard comes back as a star. -/
example :
    ofSubject (toSubject "%2E//é%.%41/ >*") = "%2E//é%.%41/ >*" ∧
      ofSubject (toSubject "event/+") = "event/*" := by
  decide +kernel

/-! ## Servers -/

/-- Whether a server hands what is published on a subject to the subscription of another: they have
as many tokens, the token `*` of the subscription takes any token, and any other takes itself. -/
def accepts (filter subject : String) : Bool :=
  let fs := Text.split '.' filter
  let ts := Text.split '.' subject
  fs.length == ts.length && (fs.zip ts).all fun (f, t) => f == "*" || f == t

/-- Tokens agree as their segments do. -/
theorem ofSegment_matches (f t : String) :
    (ofSegment f == "*" || ofSegment f == ofSegment t) = segmentMatches f t := by
  have hany : (ofSegment f == "*") = (f == any) := by
    rw [Bool.eq_iff_iff, beq_iff_eq, beq_iff_eq, ofSegment_eq_star_iff]
  have hself : (ofSegment f == ofSegment t) = (f == t) := by
    rw [Bool.eq_iff_iff, beq_iff_eq, beq_iff_eq, ofSegment_injective.eq_iff]
  rw [hany, hself]
  rfl

/-- Two lists of segments match if they are equally long and match in each place. -/
theorem segmentsMatch_eq_all_zip (fs ts : List String) :
    segmentsMatch fs ts =
      (fs.length == ts.length && (fs.zip ts).all fun (f, t) => segmentMatches f t) := by
  induction fs generalizing ts with
  | nil => cases ts <;> simp [segmentsMatch]
  | cons f fs ih =>
    cases ts with
    | nil => simp [segmentsMatch]
    | cons t ts =>
      rw [segmentsMatch, ih]
      simp [Bool.and_left_comm]

/-- A server decides about subjects as a filter does about topics. -/
theorem accepts_toSubject (filter topic : String) :
    accepts (toSubject filter) (toSubject topic) = Topic.matches filter topic := by
  unfold accepts «matches»
  simp only [split_toSubject, segmentsMatch_eq_all_zip, List.length_map, List.zip_map,
    List.all_map]
  congr 2
  funext pair
  exact ofSegment_matches pair.1 pair.2

end Topic.Subject

namespace NatsFrame

/-- Whether a server hands what one frame publishes to the subscription of the other. -/
def takes : NatsFrame → NatsFrame → Bool
  | sub filter, pub subject _ _ => Topic.Subject.accepts filter subject
  | _, _ => false

/-- **Subjects preserve routing.**  A server that knows subjects decides about every filter and
every topic as a broker that knows topics does.  So of all that is published a subscription gets the
same messages from both. -/
theorem toSubject_preserves_routing (filter topic : String) :
    Topic.Subject.accepts (Topic.toSubject filter) (Topic.toSubject topic) =
      Topic.matches filter topic ∧
    ∀ b : Broker, (b.history.filter fun raw =>
      (ofRequest (.subscribe filter)).takes (ofRequest (.publish raw))) = b.publishedTo filter := by
  refine ⟨Topic.Subject.accepts_toSubject filter topic, fun b => ?_⟩
  refine List.filter_congr fun raw _ => ?_
  exact Topic.Subject.accepts_toSubject filter raw.topic

/-- The wildcard takes a segment with a dot, and a star in a filter takes itself alone. -/
example :
    Topic.Subject.accepts (Topic.toSubject "event/+/50%") (Topic.toSubject "event/h.1/50%") = true ∧
    Topic.Subject.accepts (Topic.toSubject "event/*") (Topic.toSubject "event/h1") = false := by
  decide +kernel

end NatsFrame

end Coordination
