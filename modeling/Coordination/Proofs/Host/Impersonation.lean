import Coordination.Proofs.Host.Runs
import Coordination.Proofs.Topic.Routing
import Coordination.Reproducible
/-!
# Whom a host is taken for

A host is known by its id alone, and all that is asked of an id is that it is not blank.  This
module says which ids keep a host apart from the authority and from all other hosts, and that a
message changes a host or the client of an agent only if the authority sent it and it says what the
receiver is to do.
-/

namespace Coordination

namespace Host

/-! ## Ids that keep a host apart -/

/-- The topics of the authority of a host. -/
def authorityTopics (h : Host) : Generator := ⟨h.discovery.id, h.discovery.id⟩

/-- The inbox of the host is its own, and it is known as the sender of what it sends. -/
structure StandsApart (h : Host) : Prop where
  inbox_authority :
    ¬ Topic.matches h.inbox (Recipient.authority.topic h.authorityTopics) = true
  inbox_host : ∀ other, other ≠ h.id →
    ¬ Topic.matches h.inbox ((Recipient.host other).topic h.authorityTopics) = true
  sender : ∀ host agent a, Address.parse? (h.topics.publishTo host agent) = some a →
    a.senderId = some h.id ∧ a.senderId ≠ some h.discovery.id

/-- What the authority sends to a host reaches the inbox of another if the ids agree segment for
segment. -/
theorem matches_inbox_eq {h : Host} (htopics : h.topics = ⟨h.discovery.id, h.id⟩)
    (hne : h.id ≠ h.discovery.id) (other : String) :
    Topic.matches h.inbox ((Recipient.host other).topic h.authorityTopics) =
      Topic.segmentsMatch (Text.split '/' h.id ++ [Topic.absent])
        (Text.split '/' other ++ [Topic.absent]) := by
  have hinbox : h.inbox = Topic.event Topic.any h.discovery.id h.id Topic.absent := by
    unfold inbox
    rw [htopics]
    exact Recipient.filter_eq (r := .host h.id) fun id hid => List.mem_singleton.mp hid ▸ hne
  have htopic : (Recipient.host other).topic h.authorityTopics =
      Topic.event Topic.absent h.discovery.id other Topic.absent := by
    rw [Recipient.topic_eq, Generator.publishTo, Generator.senderSegment_of_eq rfl]
    rfl
  have habsent : Text.split '/' Topic.absent = [Topic.absent] :=
    Text.split_of_not_mem (by decide)
  have hany : Text.split '/' Topic.any = [Topic.any] := Text.split_of_not_mem (by decide)
  unfold Topic.matches
  rw [hinbox, htopic, Topic.split_event, Topic.split_event, habsent, hany]
  show (Topic.segmentMatches "event" "event" && (Topic.segmentMatches Topic.any Topic.absent &&
    Topic.segmentsMatch (Text.split '/' h.discovery.id ++ Text.split '/' h.id ++ [Topic.absent])
      (Text.split '/' h.discovery.id ++ Text.split '/' other ++ [Topic.absent]))) = _
  -- the segments before the host are the same on both sides and fall away
  rw [Topic.segmentMatches_any, Topic.segmentMatches_self, Bool.true_and, Bool.true_and,
    List.append_assoc, List.append_assoc, Topic.segmentsMatch_append_left]

/-- An id without a wildcard lets in what is sent to this id. -/
theorem matches_inbox_iff {h : Host} (htopics : h.topics = ⟨h.discovery.id, h.id⟩)
    (hne : h.id ≠ h.discovery.id) (hany : Topic.any ∉ Text.split '/' h.id) (other : String) :
    Topic.matches h.inbox ((Recipient.host other).topic h.authorityTopics) = true ↔
      other = h.id := by
  have hany' : Topic.any ∉ Text.split '/' h.id ++ [Topic.absent] := by
    rw [List.mem_append, not_or]
    exact ⟨hany, by decide⟩
  rw [matches_inbox_eq htopics hne, Topic.segmentsMatch_iff_eq hany', List.append_left_inj,
    (Text.split_injective '/').eq_iff]

/-- An id with a wildcard lets in what is sent to some other id. -/
theorem exists_matches_inbox {h : Host} (htopics : h.topics = ⟨h.discovery.id, h.id⟩)
    (hne : h.id ≠ h.discovery.id) (hany : Topic.any ∈ Text.split '/' h.id) :
    ∃ other, other ≠ h.id ∧
      Topic.matches h.inbox ((Recipient.host other).topic h.authorityTopics) = true := by
  -- every wildcard is filled in
  let fill : String → String := fun s => if s = Topic.any then Topic.absent else s
  let other := Text.join '/' ((Text.split '/' h.id).map fill)
  have hsplit : Text.split '/' other = (Text.split '/' h.id).map fill := by
    refine Text.split_join (by simpa using Text.split_ne_nil '/' h.id) ?_
    intro piece hpiece
    obtain ⟨s, hs, rfl⟩ := List.mem_map.mp hpiece
    dsimp only [fill]
    split
    · decide
    · exact Text.not_mem_of_mem_split hs
  refine ⟨other, ?_, ?_⟩
  · intro heq
    rw [heq] at hsplit
    rw [hsplit] at hany
    obtain ⟨s, -, hs⟩ := List.mem_map.mp hany
    dsimp only [fill] at hs
    split at hs
    · exact absurd hs (by decide)
    · next hother => exact hother hs
  · have hlast : [Topic.absent] = [Topic.absent].map fill := rfl
    rw [matches_inbox_eq htopics hne, hsplit]
    nth_rewrite 2 [hlast]
    rw [← List.map_append]
    refine Topic.segmentsMatch_map fun s _ hs => ?_
    exact if_neg hs

/-- **Which ids keep a host apart.**  An accepted host whose id is not that of the authority stands
apart from the authority and from all other hosts exactly if its id is not the placeholder and none
of its segments is the wildcard. -/
theorem standsApart_iff {config : HostConfig} {factory : AgentFactory} {h : Host}
    (hcreate : create config factory = .ok h) (hne : h.id ≠ h.discovery.id) :
    h.StandsApart ↔ h.id ≠ Topic.absent ∧ Topic.any ∉ Text.split '/' h.id := by
  have htopics : h.topics = ⟨h.discovery.id, h.id⟩ := by
    obtain ⟨discovery, rfl⟩ := create_eq_ok hcreate
    rfl
  have hsender : h.topics.senderId = h.id := by rw [htopics]
  have hauthority : h.topics.authorityId = h.discovery.id := by rw [htopics]
  constructor
  · intro hapart
    have hany : Topic.any ∉ Text.split '/' h.id := by
      intro hmem
      obtain ⟨other, hother, hmatches⟩ := exists_matches_inbox htopics hne hmem
      exact hapart.inbox_host other hother hmatches
    refine ⟨fun habsent => hapart.inbox_authority ?_, hany⟩
    -- what is sent to the authority is sent to the host whose id is the placeholder
    exact (matches_inbox_iff htopics hne hany Topic.absent).mpr habsent.symm
  · rintro ⟨habsent, hany⟩
    have hmatches := matches_inbox_iff htopics hne hany
    refine ⟨?_, ?_, ?_⟩
    · exact fun hinbox => habsent ((hmatches Topic.absent).mp hinbox).symm
    · exact fun other hother hinbox => hother ((hmatches other).mp hinbox)
    · intro host agent a hparse
      have hnotAny : h.topics.senderId ≠ Topic.any := by
        rw [hsender]
        intro heq
        rw [heq] at hany
        exact hany (by decide)
      have hid := Generator.senderId_of_parse? (by rwa [hsender, hauthority])
        (by rwa [hsender]) hparse
      rw [if_neg hnotAny, hsender] at hid
      exact ⟨hid, fun hsame => hne (Option.some.inj (hid.symm.trans hsame))⟩

/-- An id of two segments, one of them the placeholder. -/
theorem standsApart_two_segments :
    let config : HostConfig :=
      { discovery := { authorityUri := "http://auth.example.com" }, hostId := "kitchen/-"
        hostSecret := "s" }
    ∃ h, create config .recording = .ok h ∧ h.id ≠ h.discovery.id ∧ h.StandsApart := by
  intro config
  have hcreated : ∃ h, create config .recording = .ok h ∧ h.id ≠ h.discovery.id ∧
      h.id ≠ Topic.absent ∧ Topic.any ∉ Text.split '/' h.id := by
    decide +kernel
  obtain ⟨h, hcreate, hne, hid⟩ := hcreated
  exact ⟨h, hcreate, hne, (standsApart_iff hcreate hne).mpr hid⟩

/-- The wildcard is accepted as an id, and lets a host in on what is sent to the others.  So is the
placeholder: it lets a host in on what is sent to the authority, and the host speaks as the
authority. -/
theorem wildcard_and_placeholder_accepted :
    let config (id : String) : HostConfig :=
      { discovery := { authorityUri := "http://auth" }, hostId := id, hostSecret := "s" }
    (∃ h, create (config "+") .recording = .ok h ∧ h.id ≠ h.discovery.id ∧ "h1" ≠ h.id ∧
      Topic.matches h.inbox ((Recipient.host "h1").topic h.authorityTopics) = true) ∧
    ∃ h, create (config "-") .recording = .ok h ∧ h.id ≠ h.discovery.id ∧
      Topic.matches h.inbox (Recipient.authority.topic h.authorityTopics) = true ∧
      Topic.senderOf h.topics.publishToAuthority = some h.discovery.id := by
  intro config
  decide +kernel

end Host

/-! ## Messages that change nothing -/

/-- Whether an event tells a host what to do. -/
def Event.Commands (hostId : String) : Event → Prop
  | .hostWelcome host _ _ => host.id = hostId
  | .agentConnect _ => True
  | .agentDisconnect _ => True
  | _ => False

/-- Whether an event is a credential that a key pair opens. -/
def Event.OpenedBy (keys : KeyPair) : Event → Prop
  | .credentialResponse _ ciphertext => ∃ value, keys.decrypt ciphertext = .ok value
  | _ => False

/-- Whether a message comes from the authority and says what satisfies a condition. -/
def Message.Orders (authorityId : String) (p : Event → Prop) (m : Message) : Prop :=
  m.senderId = some authorityId ∧ ∃ e, m.decode = .ok e ∧ p e

/-- A message that is no order of the authority leaves a host as it is. -/
theorem Host.handle_of_not_orders {h : Host} {m : Message}
    (hm : ¬ m.Orders h.topics.authorityId (Event.Commands h.id)) : h.handle m = h := by
  unfold handle
  split
  · next hsender =>
    have hnot : ∀ e, m.decode = .ok e → ¬ e.Commands h.id :=
      fun e hdecode hcommands => hm ⟨hsender, e, hdecode, hcommands⟩
    split
    · next hdecode => exact if_neg (hnot _ hdecode)
    · next hdecode => exact absurd trivial (hnot _ hdecode)
    · next hdecode => exact absurd trivial (hnot _ hdecode)
    · rfl
  · rfl

namespace CredentialClient

/-- A message that brings nothing from the authority is not opened. -/
theorem opened?_of_not_orders {c : CredentialClient} {m : Message}
    (hm : ¬ m.Orders c.topics.authorityId (Event.OpenedBy c.keys)) : c.opened? m = none := by
  unfold opened?
  split
  · next hsender =>
    split
    · next name ciphertext hdecode =>
      cases hopen : c.keys.decrypt ciphertext with
      | ok value => exact absurd ⟨hsender, _, hdecode, value, hopen⟩ hm
      | error e => rfl
    · rfl
  · rfl

/-- So nothing is kept of it, and a client that has told all that it kept stays as it is. -/
theorem handle_of_not_orders {c : CredentialClient} {m : Message}
    (hm : ¬ m.Orders c.topics.authorityId (Event.OpenedBy c.keys)) :
    c.keep m = c ∧ (c.untold = [] → c.handle m = c) := by
  have hkeep : c.keep m = c := by
    unfold keep
    rw [opened?_of_not_orders hm]
  refine ⟨hkeep, fun htold => ?_⟩
  unfold handle
  dsimp only
  rw [hkeep, htold]
  rfl

end CredentialClient

theorem Message.senderId_ofWire (topic : String) (kind : MessageKind) (payload : ByteArray) :
    (Message.ofWire topic kind payload).senderId = Topic.senderOf topic := rfl

/-- What another participant sends is no order of the authority, and neither is what the authority
sends if it does not say so. -/
theorem Generator.not_orders {g : Generator}
    (hsender : g.senderId = g.authorityId ∨ Topic.IsPlain g.senderId) {p : Event → Prop}
    {host agent : Option String} {kind : MessageKind} {payload : ByteArray}
    (hp : g.senderId = g.authorityId → ∀ e,
      (Message.ofWire (g.publishTo host agent) kind payload).decode = .ok e → ¬ p e) :
    ¬ (Message.ofWire (g.publishTo host agent) kind payload).Orders g.authorityId p := by
  rintro ⟨hauthority, e, hdecode, he⟩
  by_cases hsame : g.senderId = g.authorityId
  · exact hp hsame e hdecode he
  · have hplain := hsender.resolve_left hsame
    rw [Message.senderId_ofWire] at hauthority
    exact hsame (Generator.eq_of_senderOf_publishTo hsame hplain.ne_absent hauthority).symm

/-- **Spoofed and malformed messages change nothing.**  Whatever its bytes and its kind, a message
that is sent under a topic of another participant changes neither a host nor the client of an agent;
a message that is sent under a topic of the authority changes a host only if it is a command to this
host, and a client only if it brings a credential that the client can open.  Whatever a client is in
the middle of, it keeps nothing of such a message; between messages it stays as it is. -/
theorem handle_spoofed_or_malformed (h : Host) (c : CredentialClient) {g : Generator}
    (hsender : g.senderId = g.authorityId ∨ Topic.IsPlain g.senderId)
    (host agent : Option String) (kind : MessageKind) (payload : ByteArray) :
    let m := Message.ofWire (g.publishTo host agent) kind payload
    (h.topics.authorityId = g.authorityId →
      (g.senderId = g.authorityId → ∀ e, m.decode = .ok e → ¬ e.Commands h.id) →
      h.handle m = h) ∧
    (c.topics.authorityId = g.authorityId →
      (g.senderId = g.authorityId → ∀ e, m.decode = .ok e → ¬ e.OpenedBy c.keys) →
      c.keep m = c ∧ (c.untold = [] → c.handle m = c)) := by
  intro m
  constructor
  · intro hauthority hcommands
    refine Host.handle_of_not_orders ?_
    rw [hauthority]
    exact Generator.not_orders hsender hcommands
  · intro hauthority hopened
    refine CredentialClient.handle_of_not_orders ?_
    rw [hauthority]
    exact Generator.not_orders hsender hopened

/-- One host sends another the command to run an agent, and the authority sends bytes that are no
event. -/
theorem handle_spoofed_command_malformed_bytes :
    let h : Host :=
      { id := "h1", name := "h1", secret := "s"
        discovery :=
          { id := "auth"
            authorityUri := { scheme := "http", host := some "auth", path := .rooted [""] }
            internalUri := none, brokerOverride := none, backoff := .withMax Backoff.defaultMax }
        topics := ⟨"auth", "h1"⟩, retryDelay := .ofMillis 10000 }
    let c : CredentialClient := { topics := ⟨"auth", "a"⟩, keys := PublicKey.keyPair ⟨35, 5⟩ }
    let other : Generator := ⟨"auth", "h2"⟩
    let authority : Generator := ⟨"auth", "auth"⟩
    let spoofed := Message.ofWire (other.publishTo (some "h1") none) .event
      (Message.ofData "" ((Event.agentConnect { id := "a" }).toData "now")).payload
    let malformed := Message.ofWire (authority.publishTo none (some "a")) .event "[".toUTF8
    Topic.IsPlain other.senderId ∧ other.senderId ≠ other.authorityId ∧
      spoofed.decode = .ok (.agentConnect { id := "a" }) ∧ h.handle spoofed = h ∧
      c.keep spoofed = c ∧ c.handle spoofed = c ∧
    malformed.senderId = some "auth" ∧ malformed.decode = .error .notEvent ∧
      h.handle malformed = h ∧ c.keep malformed = c ∧ c.handle malformed = c := by
  intro h c other authority spoofed malformed
  have hplain : Topic.IsPlain other.senderId ∧ other.senderId ≠ other.authorityId := by
    decide +kernel
  have hspoofed : spoofed.decode = .ok (.agentConnect { id := "a" }) := by decide +kernel
  have hmalformed : malformed.senderId = some "auth" ∧ malformed.decode = .error .notEvent := by
    decide +kernel
  -- what cannot be decoded is no event at all, so that it satisfies no condition
  have hnone : ∀ (p : Event → Prop) e, malformed.decode = .ok e → ¬ p e := by
    intro p e hdecode
    rw [hmalformed.2] at hdecode
    cases hdecode
  have hfirst := handle_spoofed_or_malformed h c (g := other) (.inr hplain.1) (some "h1") none
    .event (Message.ofData "" ((Event.agentConnect { id := "a" }).toData "now")).payload
  have hsecond := handle_spoofed_or_malformed h c (g := authority) (.inl rfl) none (some "a")
    .event "[".toUTF8
  have hclient := hfirst.2 rfl fun hsame => absurd hsame hplain.2
  have hclient' := hsecond.2 rfl fun _ => hnone _
  exact ⟨hplain.1, hplain.2, hspoofed, hfirst.1 rfl fun hsame => absurd hsame hplain.2,
    hclient.1, hclient.2 rfl, hmalformed.1, hmalformed.2, hsecond.1 rfl fun _ => hnone _,
    hclient'.1, hclient'.2 rfl⟩

end Coordination
