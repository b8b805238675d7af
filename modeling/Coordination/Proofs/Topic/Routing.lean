import Coordination.Proofs.Topic.Filters
/-!
# Who gets a topic, and who sent it

A topic reaches exactly the one participant to which it is addressed, under the authority that it
names: a filter never takes what is meant for someone else, for another role or for another
authority, and whoever sends makes no difference.  The sender that is read from a topic is the one
that made it, whatever the topic addresses.
-/

namespace Coordination

namespace Topic

/-! ## Plain ids -/

/-- An id that is one segment and has no other meaning in a topic or a filter. -/
structure IsPlain (id : String) : Prop where
  ne_empty : id ≠ ""
  slash_not_mem : '/' ∉ id.toList
  ne_any : id ≠ any
  ne_absent : id ≠ absent

instance (id : String) : Decidable (IsPlain id) :=
  decidable_of_iff (id ≠ "" ∧ '/' ∉ id.toList ∧ id ≠ any ∧ id ≠ absent)
    ⟨fun ⟨hempty, hslash, hany, habsent⟩ => ⟨hempty, hslash, hany, habsent⟩,
     fun h => ⟨h.ne_empty, h.slash_not_mem, h.ne_any, h.ne_absent⟩⟩

/-- A filter for any sender takes a topic of four segments if the other three are its own. -/
theorem matches_segments_iff {sender authority host agent authority' host' agent' : String}
    (hsender : '/' ∉ sender.toList)
    (hauthority : '/' ∉ authority.toList) (hauthority' : '/' ∉ authority'.toList)
    (hhost : '/' ∉ host.toList) (hhost' : '/' ∉ host'.toList)
    (hagent : '/' ∉ agent.toList) (hagent' : '/' ∉ agent'.toList)
    (hauthorityAny : authority ≠ any) (hhostAny : host ≠ any) (hagentAny : agent ≠ any) :
    «matches» (event any authority host agent) (event sender authority' host' agent') = true ↔
      authority' = authority ∧ host' = host ∧ agent' = agent := by
  have hany : Text.split '/' any = [any] := Text.split_of_not_mem (by decide)
  unfold «matches»
  rw [split_event, split_event, hany, Text.split_of_not_mem hsender,
    Text.split_of_not_mem hauthority, Text.split_of_not_mem hauthority',
    Text.split_of_not_mem hhost, Text.split_of_not_mem hhost', Text.split_of_not_mem hagent,
    Text.split_of_not_mem hagent']
  have hevent : segmentMatches "event" "event" = true := rfl
  simp only [List.cons_append, List.nil_append, segmentsMatch, Bool.and_eq_true, hevent,
    segmentMatches_any, segmentMatches_iff hauthorityAny, segmentMatches_iff hhostAny,
    segmentMatches_iff hagentAny, true_and, and_true]

end Topic

namespace Address

/-- Ids that are not spelled like the placeholder are told apart by their segments. -/
theorem segment_inj {id id' : Option String} (hid : ∀ s ∈ id, s ≠ Topic.absent)
    (hid' : ∀ s ∈ id', s ≠ Topic.absent) : segment id = segment id' ↔ id = id' := by
  cases id with
  | none =>
    cases id' with
    | none => simp
    | some s =>
      have hs : s ≠ Topic.absent := hid' s rfl
      simp [segment, hs.symm]
  | some s =>
    have hs : s ≠ Topic.absent := hid s rfl
    cases id' with
    | none => simp [segment, hs]
    | some s' => simp [segment]

/-- The segment of a plain id, or of nobody, is one segment and no wildcard. -/
theorem slash_not_mem_segment {id : Option String} (hid : ∀ s ∈ id, Topic.IsPlain s) :
    '/' ∉ (segment id).toList ∧ segment id ≠ Topic.any := by
  cases id with
  | none => decide
  | some s => exact ⟨(hid s rfl).slash_not_mem, (hid s rfl).ne_any⟩

end Address

namespace Generator

/-- The authority sends under the placeholder. -/
theorem senderSegment_of_eq {g : Generator} (h : g.senderId = g.authorityId) :
    g.senderSegment = Topic.absent := if_pos h

/-- A participant other than the authority sends under its own id. -/
theorem senderSegment_of_ne {g : Generator} (h : g.senderId ≠ g.authorityId) :
    g.senderSegment = g.senderId := if_neg h

/-- Whoever sends under a plain id, or as the authority, takes one segment for it. -/
theorem slash_not_mem_senderSegment {g : Generator}
    (hsender : g.senderId = g.authorityId ∨ Topic.IsPlain g.senderId) :
    '/' ∉ g.senderSegment.toList := by
  by_cases heq : g.senderId = g.authorityId
  · rw [senderSegment_of_eq heq]
    decide
  · rw [senderSegment_of_ne heq]
    exact (hsender.resolve_left heq).slash_not_mem

end Generator

/-! ## Senders -/

/-- A topic that can be parsed was made of parts that are one segment each. -/
theorem Address.slash_not_mem_of_parse?_event {sender authority host agent : String} {a : Address}
    (h : parse? (Topic.event sender authority host agent) = some a) :
    '/' ∉ sender.toList ∧ '/' ∉ authority.toList ∧ '/' ∉ host.toList ∧ '/' ∉ agent.toList := by
  have hsegment : ∀ {s : String}, (Text.split '/' s).length = 1 → '/' ∉ s.toList := by
    intro s hlength
    obtain ⟨segment, hsplit⟩ := List.length_eq_one_iff.mp hlength
    have hmem : s ∈ Text.split '/' s := by
      rw [hsplit, Text.eq_of_split_eq_singleton hsplit]
      exact List.mem_singleton_self segment
    exact Text.not_mem_of_mem_split hmem
  rw [Topic.parse?_event] at h
  have hs := Text.length_split_pos '/' sender
  have ha := Text.length_split_pos '/' authority
  have hh := Text.length_split_pos '/' host
  have hg := Text.length_split_pos '/' agent
  unfold ofSegments? at h
  split at h
  · next hsegments =>
    -- four parts with one segment at least have one segment each
    have hlength := congrArg List.length hsegments
    simp only [List.length_append, List.length_cons, List.length_nil] at hlength
    exact ⟨hsegment (by omega), hsegment (by omega), hsegment (by omega), hsegment (by omega)⟩
  · cases h

/-- It names the sender and the authority for which it was made. -/
theorem Address.of_parse?_event {sender authority host agent : String} {a : Address}
    (h : parse? (Topic.event sender authority host agent) = some a) :
    a.sender = sender ∧ a.authority = authority := by
  obtain ⟨hsender, hauthority, hhost, hagent⟩ := slash_not_mem_of_parse?_event h
  rw [Topic.parse?_event, Text.split_of_not_mem hsender, Text.split_of_not_mem hauthority,
    Text.split_of_not_mem hhost, Text.split_of_not_mem hagent] at h
  unfold ofSegments? at h
  simp only [List.cons_append, List.nil_append] at h
  split at h
  · cases h
  · cases h
    exact ⟨rfl, rfl⟩

namespace Generator

/-- What a participant sends comes from itself, unless its id is spelled like the placeholder; one
whose id is spelled like the wildcard is nobody. -/
theorem senderId_of_parse? {g : Generator} (hne : g.senderId ≠ g.authorityId)
    (habsent : g.senderId ≠ Topic.absent) {host agent : Option String} {a : Address}
    (h : Address.parse? (g.publishTo host agent) = some a) :
    a.senderId = if g.senderId = Topic.any then none else some g.senderId := by
  obtain ⟨hsender, -⟩ := Address.of_parse?_event h
  rw [senderSegment_of_ne hne] at hsender
  unfold Address.senderId
  rw [hsender, if_neg habsent]

/-- So a topic of such a participant names itself as the sender, or nobody. -/
theorem eq_of_senderOf_publishTo {g : Generator} (hne : g.senderId ≠ g.authorityId)
    (habsent : g.senderId ≠ Topic.absent) {host agent : Option String} {id : String}
    (h : Topic.senderOf (g.publishTo host agent) = some id) : id = g.senderId := by
  obtain ⟨a, hparse, hid⟩ := Option.bind_eq_some_iff.mp h
  rw [senderId_of_parse? hne habsent hparse] at hid
  split at hid
  · cases hid
  · exact (Option.some.inj hid).symm

end Generator

/-! ## Recipients -/

/-- One to whom a topic can be addressed. -/
inductive Recipient where
  | authority
  | host (id : String)
  | agent (id : String)
deriving DecidableEq, Repr

namespace Recipient

def hostId : Recipient → Option String
  | host id => some id
  | _ => none

def agentId : Recipient → Option String
  | agent id => some id
  | _ => none

/-- The filter on which the recipient listens under an authority. -/
def filter (authorityId : String) : Recipient → String
  | authority => Generator.subscribeAsAuthority ⟨authorityId, authorityId⟩
  | host id => Generator.subscribeAsHost ⟨authorityId, id⟩
  | agent id => Generator.subscribeAsAgent ⟨authorityId, id⟩

/-- The topic under which a participant sends to the recipient. -/
def topic (g : Generator) : Recipient → String
  | authority => g.publishToAuthority
  | host id => g.publishToHost id
  | agent id => g.publishToAgent id

/-- The ids that the recipient goes by. -/
def ids (r : Recipient) : List String := r.hostId.toList ++ r.agentId.toList

variable {r r' : Recipient}

theorem eq_iff : r = r' ↔ r.hostId = r'.hostId ∧ r.agentId = r'.agentId := by
  cases r <;> cases r' <;> simp [hostId, agentId]

theorem mem_ids_of_mem_hostId {id : String} (h : id ∈ r.hostId) : id ∈ r.ids :=
  List.mem_append_left _ (Option.mem_toList.mpr h)

theorem mem_ids_of_mem_agentId {id : String} (h : id ∈ r.agentId) : id ∈ r.ids :=
  List.mem_append_right _ (Option.mem_toList.mpr h)

theorem topic_eq (g : Generator) (r : Recipient) : r.topic g = g.publishTo r.hostId r.agentId := by
  cases r <;> rfl

/-- A recipient other than the authority listens under its own id. -/
theorem filter_eq {authorityId : String} (hids : ∀ id ∈ r.ids, id ≠ authorityId) :
    r.filter authorityId = Topic.event Topic.any authorityId (Address.segment r.hostId)
      (Address.segment r.agentId) := by
  have hsegment : ∀ id ∈ r.ids, Generator.senderSegment ⟨authorityId, id⟩ = id :=
    fun id hid => Generator.senderSegment_of_ne (hids id hid)
  cases r with
  | authority => rfl
  | host id =>
    show Generator.subscribeAs _ (some (Generator.senderSegment ⟨authorityId, id⟩)) none = _
    rw [hsegment id (List.mem_singleton_self id)]
    rfl
  | agent id =>
    show Generator.subscribeAs _ none (some (Generator.senderSegment ⟨authorityId, id⟩)) = _
    rw [hsegment id (List.mem_singleton_self id)]
    rfl

/-- **Routing is exact.**  Under plain ids a recipient gets what is addressed to it under its
authority, from whatever sender, and nothing else. -/
theorem matches_filter_topic_iff {authorityId : String} {g : Generator}
    {subscriber addressee : Recipient}
    (hauthority : Topic.IsPlain authorityId) (hauthority' : Topic.IsPlain g.authorityId)
    (hsender : g.senderId = g.authorityId ∨ Topic.IsPlain g.senderId)
    (hsubscriber : ∀ id ∈ subscriber.ids, Topic.IsPlain id ∧ id ≠ authorityId)
    (haddressee : ∀ id ∈ addressee.ids, Topic.IsPlain id) :
    Topic.matches (subscriber.filter authorityId) (addressee.topic g) = true ↔
      g.authorityId = authorityId ∧ addressee = subscriber := by
  have hhost := fun id hid => haddressee id (mem_ids_of_mem_hostId hid)
  have hagent := fun id hid => haddressee id (mem_ids_of_mem_agentId hid)
  have hhostOwn := fun id hid => (hsubscriber id (mem_ids_of_mem_hostId hid)).1
  have hagentOwn := fun id hid => (hsubscriber id (mem_ids_of_mem_agentId hid)).1
  obtain ⟨hhostSlash, hhostAny⟩ := Address.slash_not_mem_segment hhostOwn
  obtain ⟨hagentSlash, hagentAny⟩ := Address.slash_not_mem_segment hagentOwn
  -- both are written as segments first; plain ids make each of them one segment
  rw [filter_eq fun id hid => (hsubscriber id hid).2, topic_eq, Generator.publishTo,
    Topic.matches_segments_iff (Generator.slash_not_mem_senderSegment hsender)
      hauthority.slash_not_mem hauthority'.slash_not_mem
      hhostSlash (Address.slash_not_mem_segment hhost).1
      hagentSlash (Address.slash_not_mem_segment hagent).1
      hauthority.ne_any hhostAny hagentAny,
    Address.segment_inj (fun id hid => (hhost id hid).ne_absent)
      (fun id hid => (hhostOwn id hid).ne_absent),
    Address.segment_inj (fun id hid => (hagent id hid).ne_absent)
      (fun id hid => (hagentOwn id hid).ne_absent),
    ← eq_iff]

/-- A host gets what another host sends to it, and not what is meant for the agent of its id or
comes from another authority. -/
theorem matches_filter_topic_host :
    let g : Generator := ⟨"auth.example.com", "h2"⟩
    let other : Generator := ⟨"other.example.com", "other.example.com"⟩
    (Topic.IsPlain g.authorityId ∧ Topic.IsPlain g.senderId ∧ Topic.IsPlain other.authorityId ∧
      Topic.IsPlain "h1" ∧ "h1" ≠ g.authorityId) ∧
    Topic.matches ((host "h1").filter g.authorityId) ((host "h1").topic g) = true ∧
    ¬ Topic.matches ((host "h1").filter g.authorityId) ((agent "h1").topic g) = true ∧
    ¬ Topic.matches ((host "h1").filter g.authorityId) ((host "h1").topic other) = true := by
  intro g other
  have hplain : Topic.IsPlain g.authorityId ∧ Topic.IsPlain g.senderId ∧
      Topic.IsPlain other.authorityId ∧ Topic.IsPlain "h1" ∧ "h1" ≠ g.authorityId := by
    decide +kernel
  obtain ⟨hauthority, hsender, hother, hid, hne⟩ := hplain
  have hsubscriber : ∀ id ∈ (host "h1").ids, Topic.IsPlain id ∧ id ≠ g.authorityId := by
    intro id hmem
    obtain rfl := List.mem_singleton.mp hmem
    exact ⟨hid, hne⟩
  have hhost : ∀ id ∈ (host "h1").ids, Topic.IsPlain id := fun id hmem => (hsubscriber id hmem).1
  have hagent : ∀ id ∈ (agent "h1").ids, Topic.IsPlain id := hhost
  refine ⟨⟨hauthority, hsender, hother, hid, hne⟩, ?_, ?_, ?_⟩
  · exact (matches_filter_topic_iff hauthority hauthority (.inr hsender) hsubscriber hhost).mpr
      ⟨rfl, rfl⟩
  · rw [matches_filter_topic_iff hauthority hauthority (.inr hsender) hsubscriber hagent]
    exact fun hboth => nomatch hboth.2
  · rw [matches_filter_topic_iff hauthority hother (.inl rfl) hsubscriber hhost]
    decide +kernel

end Recipient

end Coordination
