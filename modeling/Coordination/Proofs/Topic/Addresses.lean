import Coordination.Proofs.Topic.Routing
/-!
# Topics taken apart

A text is the topic of an event exactly when four segments follow the lead, none of them empty.  Its
parts are then read without loss: put together again they give the topic, so no two topics have the
same parts.  Under plain ids the parts are those from which the topic was made, and the sender is the
participant that made it, also where the authority sends under the placeholder.
-/

namespace Coordination

namespace Text

/-- What follows the lead is what was put behind it. -/
theorem afterLead?_eq_some_iff {lead s rest : String} :
    afterLead? lead s = some rest ↔ s = lead ++ rest := by
  constructor
  · intro h
    obtain ⟨chars, hchars, rfl⟩ := Option.map_eq_some_iff.mp h
    apply String.toList_injective
    rw [String.toList_append, String.toList_ofList]
    exact (List.isPrefixOf?_eq_some_iff_append_eq.mp hchars).symm
  · intro h
    rw [h]
    exact afterLead?_append lead rest

end Text

namespace Topic

/-- A text that can stand between two slashes of a topic. -/
structure IsSegment (s : String) : Prop where
  ne_empty : s ≠ ""
  slash_not_mem : '/' ∉ s.toList

/-- The topics of events: the lead and four segments behind it. -/
def IsEvent (topic : String) : Prop :=
  ∃ segments : List String, segments.length = 4 ∧ (∀ s ∈ segments, IsSegment s) ∧
    topic = eventLead ++ Text.join '/' segments

theorem IsPlain.isSegment {id : String} (h : IsPlain id) : IsSegment id :=
  ⟨h.ne_empty, h.slash_not_mem⟩

theorem isSegment_absent : IsSegment absent := ⟨by decide, by decide⟩

/-- The topic of four segments is these segments between slashes. -/
theorem event_eq_join (sender authority host agent : String) :
    event sender authority host agent =
      eventLead ++ Text.join '/' [sender, authority, host, agent] := by
  apply String.toList_injective
  simp [event, Text.join, Text.joinChars]

end Topic

namespace Address

/-! ## Segments of an address -/

/-- The segments that write the parts. -/
def segments (a : Address) : List String :=
  [a.sender, a.authority, segment a.host, segment a.agent]

/-- The parts as they can be read from a topic: each is one segment, and an absent host or agent has
no other form than the placeholder. -/
structure IsProper (a : Address) : Prop where
  isSegment : ∀ s ∈ a.segments, Topic.IsSegment s
  host_ne : a.host ≠ some Topic.absent
  agent_ne : a.agent ≠ some Topic.absent

theorem render_eq_join (a : Address) :
    a.render = Topic.eventLead ++ Text.join '/' a.segments :=
  Topic.event_eq_join _ _ _ _

theorem segment_ofSegment (s : String) : segment (ofSegment s) = s := by
  unfold ofSegment
  split
  · next h => rw [h]; rfl
  · rfl

/-- An id is read as it was written, if it is not spelled like the placeholder. -/
theorem ofSegment_segment {id : Option String} (h : id ≠ some Topic.absent) :
    ofSegment (segment id) = id := by
  cases id with
  | none => rfl
  | some s => exact if_neg fun hs => h (congrArg some hs)

/-- The placeholder is read as the absence of an id. -/
theorem ofSegment_ne (s : String) : ofSegment s ≠ some Topic.absent := by
  unfold ofSegment
  split
  · exact Option.some_ne_none _ |>.symm
  · next h => exact fun hs => h (Option.some.inj hs)

/-- **Segments are read without loss**: as the one address that is written by them. -/
theorem ofSegments?_eq_some_iff {segments : List String} {a : Address} :
    ofSegments? segments = some a ↔
      segments = a.segments ∧ "" ∉ segments ∧ a.host ≠ some Topic.absent ∧
        a.agent ≠ some Topic.absent := by
  constructor
  · intro h
    unfold ofSegments? at h
    split at h
    · next sender authority host agent =>
      split at h
      · cases h
      · next hne =>
        cases h
        -- no place is empty, in the order in which the reader checks them
        have hempty : "" ∉ [sender, authority, host, agent] := by
          intro hmem
          apply hne
          simp only [List.mem_cons, List.not_mem_nil, or_false] at hmem
          exact hmem.imp Eq.symm (Or.imp Eq.symm (Or.imp Eq.symm Eq.symm))
        refine ⟨?_, hempty, ofSegment_ne host, ofSegment_ne agent⟩
        rw [Address.segments, segment_ofSegment, segment_ofSegment]
    · cases h
  · intro hparts
    obtain ⟨rfl, hempty, hhost, hagent⟩ := hparts
    have hne : ¬ (a.sender = "" ∨ a.authority = "" ∨ segment a.host = "" ∨
        segment a.agent = "") := by
      intro h
      apply hempty
      simp only [Address.segments, List.mem_cons, List.not_mem_nil, or_false]
      exact h.imp Eq.symm (Or.imp Eq.symm (Or.imp Eq.symm Eq.symm))
    rw [Address.segments, ofSegments?, if_neg hne, ofSegment_segment hhost,
      ofSegment_segment hagent]

/-! ## Topics -/

/-- A topic that can be parsed is written by its parts. -/
theorem parse?_eq_some_iff {topic : String} {a : Address} :
    parse? topic = some a ↔ a.IsProper ∧ a.render = topic := by
  unfold parse?
  rw [Option.bind_eq_some_iff]
  constructor
  · intro hfound
    obtain ⟨rest, hrest, hsegments⟩ := hfound
    obtain ⟨hsplit, hempty, hhost, hagent⟩ := ofSegments?_eq_some_iff.mp hsegments
    refine ⟨⟨?_, hhost, hagent⟩, ?_⟩
    · intro s hs
      rw [← hsplit] at hs
      exact ⟨fun heq => hempty (heq ▸ hs), Text.not_mem_of_mem_split hs⟩
    · rw [render_eq_join, ← hsplit, Text.join_split]
      exact (Text.afterLead?_eq_some_iff.mp hrest).symm
  · intro hwritten
    obtain ⟨hproper, rfl⟩ := hwritten
    -- no segment holds a slash, so cutting undoes joining
    have hsplit : Text.split '/' (Text.join '/' a.segments) = a.segments :=
      Text.split_join (List.cons_ne_nil _ _) fun s hs => (hproper.isSegment s hs).slash_not_mem
    refine ⟨Text.join '/' a.segments, Text.afterLead?_eq_some_iff.mpr (render_eq_join a), ?_⟩
    rw [hsplit, ofSegments?_eq_some_iff]
    exact ⟨rfl, fun hmem => (hproper.isSegment "" hmem).ne_empty rfl, hproper.host_ne,
      hproper.agent_ne⟩

/-- Four segments behind the lead are the address that they write. -/
theorem isSome_parse?_iff {topic : String} : (parse? topic).isSome = true ↔ Topic.IsEvent topic := by
  rw [Option.isSome_iff_exists]
  constructor
  · intro hsome
    obtain ⟨a, ha⟩ := hsome
    obtain ⟨hproper, rfl⟩ := parse?_eq_some_iff.mp ha
    exact ⟨a.segments, rfl, hproper.isSegment, render_eq_join a⟩
  · intro hevent
    obtain ⟨segments, hlength, hsegments, rfl⟩ := hevent
    obtain ⟨sender, authority, host, agent, rfl⟩ := List.length_eq_four.mp hlength
    -- the address that these four segments write
    have hwritten : segments ⟨sender, authority, ofSegment host, ofSegment agent⟩ =
        [sender, authority, host, agent] := by
      rw [Address.segments, segment_ofSegment, segment_ofSegment]
    refine ⟨⟨sender, authority, ofSegment host, ofSegment agent⟩, parse?_eq_some_iff.mpr
      ⟨⟨?_, ofSegment_ne host, ofSegment_ne agent⟩, ?_⟩⟩
    · rw [hwritten]
      exact hsegments
    · rw [render_eq_join, hwritten]

/-! ## Topics of a participant -/

/-- The parts from which a participant makes a topic. -/
def ofPublication (g : Generator) (host agent : Option String) : Address :=
  ⟨g.senderSegment, g.authorityId, host, agent⟩

/-- The segment of a plain id, or of nobody, is a segment. -/
theorem isSegment_segment {id : Option String} (h : ∀ s ∈ id, Topic.IsPlain s) :
    Topic.IsSegment (segment id) := by
  cases id with
  | none => exact Topic.isSegment_absent
  | some s => exact (h s rfl).isSegment

theorem ne_absent_of_isPlain {id : Option String} (h : ∀ s ∈ id, Topic.IsPlain s) :
    id ≠ some Topic.absent := by
  rintro rfl
  exact (h Topic.absent rfl).ne_absent rfl

section Publication

variable {g : Generator} {host agent : Option String}

/-- A participant of a plain id sends under one segment. -/
theorem isSegment_senderSegment (h : Topic.IsPlain g.senderId) :
    Topic.IsSegment g.senderSegment := by
  by_cases heq : g.senderId = g.authorityId
  · rw [Generator.senderSegment_of_eq heq]
    exact Topic.isSegment_absent
  · rw [Generator.senderSegment_of_ne heq]
    exact h.isSegment

/-- The topic of a participant is parsed into the parts from which it was made. -/
theorem parse?_publishTo (hauthority : Topic.IsPlain g.authorityId)
    (hsender : Topic.IsPlain g.senderId) (hhost : ∀ id ∈ host, Topic.IsPlain id)
    (hagent : ∀ id ∈ agent, Topic.IsPlain id) :
    parse? (g.publishTo host agent) = some (ofPublication g host agent) := by
  rw [parse?_eq_some_iff]
  refine ⟨⟨?_, ne_absent_of_isPlain hhost, ne_absent_of_isPlain hagent⟩, rfl⟩
  simp only [segments, ofPublication, List.forall_mem_cons]
  exact ⟨isSegment_senderSegment hsender, hauthority.isSegment, isSegment_segment hhost,
    isSegment_segment hagent, fun _ hnil => nomatch hnil⟩

/-- The sender is the participant, under whatever segment it sends. -/
theorem senderId_ofPublication (hsender : Topic.IsPlain g.senderId) :
    (ofPublication g host agent).senderId = some g.senderId := by
  unfold senderId ofPublication
  by_cases heq : g.senderId = g.authorityId
  · rw [Generator.senderSegment_of_eq heq, if_pos rfl, heq]
  · rw [Generator.senderSegment_of_ne heq, if_neg hsender.ne_absent, if_neg hsender.ne_any]

end Publication

/-- **Parsing is exact.**  The topics of events have an address and nothing else has; the address
writes the topic, so no other topic has it; and under plain ids a topic has the authority, host and
agent for which it was made and the sender that made it, be that the authority or not. -/
theorem parse?_exact :
    (∀ topic, (parse? topic).isSome = true ↔ Topic.IsEvent topic) ∧
    (∀ topic a, parse? topic = some a →
      a.render = topic ∧ ∀ other, parse? other = some a → other = topic) ∧
    ∀ (g : Generator) (host agent : Option String), Topic.IsPlain g.authorityId →
      Topic.IsPlain g.senderId → (∀ id ∈ host, Topic.IsPlain id) →
      (∀ id ∈ agent, Topic.IsPlain id) →
      ∃ a, parse? (g.publishTo host agent) = some a ∧ a.authority = g.authorityId ∧
        a.host = host ∧ a.agent = agent ∧ a.senderId = some g.senderId := by
  refine ⟨fun topic => isSome_parse?_iff, ?_, ?_⟩
  · intro topic a ha
    obtain ⟨-, hrender⟩ := parse?_eq_some_iff.mp ha
    refine ⟨hrender, fun other hother => ?_⟩
    obtain ⟨-, hrender'⟩ := parse?_eq_some_iff.mp hother
    rw [← hrender, ← hrender']
  · intro g host agent hauthority hsender hhost hagent
    exact ⟨ofPublication g host agent, parse?_publishTo hauthority hsender hhost hagent, rfl, rfl,
      rfl, senderId_ofPublication hsender⟩

/-- The authority sends to an agent on a host under the placeholder, and is the sender. -/
theorem parse?_exact_authority :
    let g : Generator := ⟨"auth.example.com", "auth.example.com"⟩
    let topic := "event/-/auth.example.com/h1/a 1"
    Topic.IsPlain g.authorityId ∧ Topic.IsPlain "h1" ∧ Topic.IsPlain "a 1" ∧
      Topic.IsEvent topic ∧ (∀ other, parse? other = parse? topic → other = topic) ∧
      ∃ a, parse? topic = some a ∧ a.authority = g.authorityId ∧ a.host = some "h1" ∧
        a.agent = some "a 1" ∧ a.senderId = some g.senderId := by
  intro g topic
  have hplain : Topic.IsPlain g.authorityId ∧ Topic.IsPlain "h1" ∧ Topic.IsPlain "a 1" := by
    decide +kernel
  obtain ⟨hauthority, hhost, hagent⟩ := hplain
  obtain ⟨hevent, hwritten, hmade⟩ := parse?_exact
  have htopic : g.publishTo (some "h1") (some "a 1") = topic := by decide +kernel
  obtain ⟨a, ha, hparts⟩ := hmade g (some "h1") (some "a 1") hauthority hauthority
    (fun id hid => Option.mem_some.mp hid ▸ hhost) (fun id hid => Option.mem_some.mp hid ▸ hagent)
  rw [htopic] at ha
  refine ⟨hauthority, hhost, hagent, (hevent topic).mp (by rw [ha]; rfl), ?_, a, ha, hparts⟩
  intro other hother
  exact (hwritten topic a ha).2 other (hother.trans ha)

end Address

end Coordination
