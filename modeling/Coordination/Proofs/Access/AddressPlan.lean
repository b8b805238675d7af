import Coordination.Proofs.Access.Listening
import Coordination.Proofs.Topic.Routing
/-!
# Masks and the topics of the participants

The topics that participants use and the masks that their roles grant are two descriptions of one
plan of addresses.  They agree: a host listens on its own inbox and reports to the authority without
asking anyone, it acts for an agent exactly as far as a lookup confirms, and it commands no host.
The authority listens on its inbox and writes to every host and agent.  Whoever may listen on an
inbox may also read what arrives there.
-/

namespace Coordination

/-! ## Topics of four segments -/

namespace Topic

variable {sender authority host agent topic : String}

/-- Behind the lead, a topic is written like a mask. -/
theorem body_event : body (event sender authority host agent) =
    Access.mask sender authority host agent := by
  have hlead : event sender authority host agent =
      eventLead ++ Access.mask sender authority host agent := by
    simp [event, Access.mask, String.append_assoc]
  unfold body
  rw [hlead, Text.afterLead?_append, Option.getD_some]

/-- No event topic is one of the handshake. -/
theorem startsWith_connectLead_event :
    Text.startsWith connectLead (event sender authority host agent) = false := by
  -- the first letters differ already
  simp [Text.startsWith, Text.afterLead?, event, eventLead, connectLead, List.isPrefixOf?]

/-- A topic that a filter for any sender takes is the filter with a sender put in. -/
theorem exists_of_matches (hauthority : '/' ∉ authority.toList) (hhost : '/' ∉ host.toList)
    (hagent : '/' ∉ agent.toList) (hauthorityAny : authority ≠ any) (hhostAny : host ≠ any)
    (hagentAny : agent ≠ any)
    (h : «matches» (event any authority host agent) topic = true) :
    ∃ sender, '/' ∉ sender.toList ∧ topic = event sender authority host agent := by
  have hany : Text.split '/' any = [any] := Text.split_of_not_mem (by decide)
  have hfilter : Text.split '/' (event any authority host agent) =
      ["event"] ++ (any :: [authority, host, agent]) := by
    rw [split_event, hany, Text.split_of_not_mem hauthority, Text.split_of_not_mem hhost,
      Text.split_of_not_mem hagent]
    rfl
  have hrest : any ∉ [authority, host, agent] := by
    simp [hauthorityAny.symm, hhostAny.symm, hagentAny.symm]
  have hevent : "event" ≠ any := by decide
  unfold «matches» at h
  rw [hfilter] at h
  -- the topic is cut into as many segments as the filter
  match hsplit : Text.split '/' topic with
  | [] => exact absurd hsplit (Text.split_ne_nil '/' topic)
  | [lead] =>
    rw [hsplit] at h
    simp [segmentsMatch] at h
  | lead :: sender :: rest =>
    rw [hsplit] at h
    simp only [List.cons_append, List.nil_append, segmentsMatch, Bool.and_eq_true,
      segmentMatches_iff hevent, segmentsMatch_iff_eq hrest] at h
    obtain ⟨rfl, -, rfl⟩ := h
    have hsender : '/' ∉ sender.toList := by
      apply Text.not_mem_of_mem_split (s := topic)
      rw [hsplit]
      simp
    refine ⟨sender, hsender, Text.split_injective '/' ?_⟩
    rw [hsplit, split_event, Text.split_of_not_mem hsender, Text.split_of_not_mem hauthority,
      Text.split_of_not_mem hhost, Text.split_of_not_mem hagent]
    rfl

end Topic

/-! ## Clients of one role -/

/-- The client is a host under an authority, and nothing else. -/
structure Principal.IsHost (p : Principal) (authority host : String) : Prop where
  roles : ∀ r, r ∈ p.roles ↔ r = .host
  hostId : p.hostId = some host
  authorityId : p.authorityId = some authority

structure Principal.IsAuthority (p : Principal) (authority : String) : Prop where
  roles : ∀ r, r ∈ p.roles ↔ r = .authority
  authorityId : p.authorityId = some authority

namespace Access

def code : Access → Nat
  | read => 1
  | write => 2
  | subscribe => 4

theorem ofCode?_code (access : Access) : ofCode? access.code = some access := by
  cases access <;> rfl

/-- A verifier that always has an answer. -/
def answering (answers : Lookup → Bool) : Verifier := fun l => .ok (answers l)

theorem answering_iff {answers : Lookup → Bool} {l : Lookup} :
    answering answers l = .ok true ↔ answers l = true := by
  simp [answering]

/-- A client may use a topic in some way, when every lookup has an answer; its name in the request
does not matter. -/
def May (answers : Lookup → Bool) (name : String) (p : Principal) (access : Access)
    (topic : String) : Prop :=
  (check (answering answers) ⟨access.code, name, topic⟩ p).allowed = true

section may
variable {answers : Lookup → Bool} {name authority host : String} {p : Principal} {access : Access}
  {sender authority' host' agent' : String}

/-- Event topics are decided by the masks of the client. -/
theorem may_event_iff :
    May answers name p access (Topic.event sender authority' host' agent') ↔
      ∃ m ∈ masks p access,
        Grants (answering answers) p (mask sender authority' host' agent') access m := by
  let request : AccessRequest :=
    ⟨access.code, name, Topic.event sender authority' host' agent'⟩
  have hcode : ofCode? request.code = some access := ofCode?_code access
  have hconnect : Text.startsWith Topic.connectLead request.topic = false :=
    Topic.startsWith_connectLead_event
  rw [← Topic.body_event]
  exact check_allowed_iff hcode hconnect

/-- An authority is granted what the masks of the authority grant. -/
theorem masks_of_isAuthority (hp : p.IsAuthority authority) :
    masks p access = authorityMasks authority access := by
  have hauthority : Role.authority ∈ p.roles := (hp.roles _).2 rfl
  have hhost : Role.host ∉ p.roles := by
    rw [hp.roles]
    decide
  simp [masks, hp.authorityId, hhost, hauthority]

variable (hsender : '/' ∉ sender.toList) (hauthority' : '/' ∉ authority'.toList)
  (hhost' : '/' ∉ host'.toList) (hagent' : '/' ∉ agent'.toList)
include hsender hauthority' hhost' hagent'

/-- What a host may listen to. -/
theorem host_may_listen_iff (hp : p.IsHost authority host) (ha : PlainId authority)
    (hh : PlainId host) (haccess : access ≠ .write) :
    May answers name p access (Topic.event sender authority' host' agent') ↔
      Hears access sender ∧ authority' = authority ∧
        MayHear (answering answers) host host' agent' := by
  rw [may_event_iff, masks_of_host hp.roles hp.hostId hp.authorityId,
    grants_listen_iff hp.hostId ha hh haccess (ofText?_mask hsender hauthority' hhost' hagent')]

/-- What a host may write. -/
theorem host_may_write_iff (hp : p.IsHost authority host) (ha : PlainId authority)
    (hh : PlainId host) :
    May answers name p .write (Topic.event sender authority' host' agent') ↔
      authority' = authority ∧ host' = Topic.absent ∧
        (MayWrite (answering answers) host sender agent' ∨
          sender = query ∧ agent' = Topic.absent) := by
  rw [may_event_iff, masks_of_host hp.roles hp.hostId hp.authorityId,
    grants_write_iff hp.hostId ha hh (ofText?_mask hsender hauthority' hhost' hagent')]

/-- What an authority may listen to. -/
theorem authority_may_listen_iff (hp : p.IsAuthority authority) (ha : PlainId authority)
    (haccess : access ≠ .write) :
    May answers name p access (Topic.event sender authority' host' agent') ↔
      Hears access sender ∧ authority' = authority ∧ host' = Topic.absent ∧
        agent' = Topic.absent := by
  rw [may_event_iff, masks_of_isAuthority hp,
    grants_authority_listen_iff ha haccess (ofText?_mask hsender hauthority' hhost' hagent')]

/-- What an authority may write. -/
theorem authority_may_write_iff (hp : p.IsAuthority authority) (ha : PlainId authority) :
    May answers name p .write (Topic.event sender authority' host' agent') ↔
      sender = Topic.absent ∧ authority' = authority := by
  rw [may_event_iff, masks_of_isAuthority hp,
    grants_authority_write_iff ha (ofText?_mask hsender hauthority' hhost' hagent')]

end may

/-! ## Listening and reading -/

section reading
variable {answers : Lookup → Bool} {name authority host authority' host' agent' topic : String}
  {p : Principal} (hauthority' : '/' ∉ authority'.toList) (hhost' : '/' ∉ host'.toList)
  (hagent' : '/' ∉ agent'.toList) (hauthorityAny : authority' ≠ Topic.any)
  (hhostAny : host' ≠ Topic.any) (hagentAny : agent' ≠ Topic.any)
include hauthority' hhost' hagent' hauthorityAny hhostAny hagentAny

/-- A host may read what arrives on a filter to which it may subscribe. -/
theorem host_may_read_of_subscribe (hp : p.IsHost authority host) (ha : PlainId authority)
    (hh : PlainId host)
    (hsubscribe : May answers name p .subscribe (Topic.event Topic.any authority' host' agent'))
    (hmatches : Topic.matches (Topic.event Topic.any authority' host' agent') topic = true) :
    May answers name p .read topic := by
  obtain ⟨sender, hsender, rfl⟩ := Topic.exists_of_matches hauthority' hhost' hagent'
    hauthorityAny hhostAny hagentAny hmatches
  rw [host_may_listen_iff (by decide) hauthority' hhost' hagent' hp ha hh (by decide)] at hsubscribe
  rw [host_may_listen_iff hsender hauthority' hhost' hagent' hp ha hh (by decide)]
  -- reading asks nothing of the sender
  exact ⟨fun heq => (nomatch heq), hsubscribe.2⟩

/-- So may an authority. -/
theorem authority_may_read_of_subscribe (hp : p.IsAuthority authority) (ha : PlainId authority)
    (hsubscribe : May answers name p .subscribe (Topic.event Topic.any authority' host' agent'))
    (hmatches : Topic.matches (Topic.event Topic.any authority' host' agent') topic = true) :
    May answers name p .read topic := by
  obtain ⟨sender, hsender, rfl⟩ := Topic.exists_of_matches hauthority' hhost' hagent'
    hauthorityAny hhostAny hagentAny hmatches
  rw [authority_may_listen_iff (by decide) hauthority' hhost' hagent' hp ha (by decide)]
    at hsubscribe
  rw [authority_may_listen_iff hsender hauthority' hhost' hagent' hp ha (by decide)]
  exact ⟨fun heq => (nomatch heq), hsubscribe.2⟩

end reading

/-! ## The plan of addresses -/

/-- What a host may do with the topics that it and one of the agents use. -/
structure HostRights (answers : Lookup → Bool) (name : String) (p : Principal)
    (authority host agent : String) : Prop where
  /-- It listens on its own inbox. -/
  inbox : May answers name p .subscribe (Generator.subscribeAsHost ⟨authority, host⟩)
  /-- It writes to the authority in its own name. -/
  report : May answers name p .write (Generator.publishToAuthority ⟨authority, host⟩)
  /-- It listens on the inbox of an agent for which it acts. -/
  agentInbox : May answers name p .subscribe (Generator.subscribeAsAgent ⟨authority, agent⟩) ↔
    answers ⟨host, none, some agent⟩ = true
  /-- It writes to the authority in the name of an agent for which it acts. -/
  agentReport : May answers name p .write (Generator.publishToAuthority ⟨authority, agent⟩) ↔
    answers ⟨host, some agent, none⟩ = true
  /-- It writes to no host, neither in its own name nor in that of the agent. -/
  noCommand : ∀ sender ∈ [host, agent], ∀ other, PlainId other →
    ¬ May answers name p .write (Generator.publishToHost ⟨authority, sender⟩ other)
  /-- It reads what arrives where it may listen. -/
  reads : ∀ filter ∈ [Generator.subscribeAsHost ⟨authority, host⟩,
      Generator.subscribeAsAgent ⟨authority, agent⟩],
    May answers name p .subscribe filter → ∀ topic, Topic.matches filter topic = true →
      May answers name p .read topic

/-- What an authority may do with the topics that it uses. -/
structure AuthorityRights (answers : Lookup → Bool) (name : String) (p : Principal)
    (authority : String) : Prop where
  /-- It listens on its inbox. -/
  inbox : May answers name p .subscribe (Generator.subscribeAsAuthority ⟨authority, authority⟩)
  /-- It writes to every host. -/
  toHost : ∀ host, PlainId host →
    May answers name p .write (Generator.publishToHost ⟨authority, authority⟩ host)
  /-- It writes to every agent. -/
  toAgent : ∀ agent, PlainId agent →
    May answers name p .write (Generator.publishToAgent ⟨authority, authority⟩ agent)
  /-- It reads what arrives in its inbox. -/
  reads : May answers name p .subscribe (Generator.subscribeAsAuthority ⟨authority, authority⟩) →
    ∀ topic,
      Topic.matches (Generator.subscribeAsAuthority ⟨authority, authority⟩) topic = true →
      May answers name p .read topic

section plan
variable {answers : Lookup → Bool} {name authority host agent : String} {p q : Principal}

/-- A host hears for an agent what is addressed to no host in particular. -/
theorem mayHear_agent_iff (hh : host ≠ Topic.absent) (hg : agent ≠ Topic.absent) :
    MayHear (answering answers) host Topic.absent agent ↔
      answers ⟨host, none, some agent⟩ = true := by
  constructor
  · intro hmay
    generalize hsegment : Topic.absent = segment at hmay
    cases hmay with
    | own => exact absurd hsegment.symm hh
    | everyone => exact absurd hsegment (by decide)
    | agent _ _ hverify => exact answering_iff.mp hverify
  · intro hanswer
    exact .agent (.inr rfl) hg (answering_iff.mpr hanswer)

/-- A host writes to the authority in the name of an agent. -/
theorem mayWrite_behalf_iff (hne : agent ≠ host) (hg : agent ≠ Topic.absent) :
    MayWrite (answering answers) host agent Topic.absent ↔
      answers ⟨host, some agent, none⟩ = true := by
  constructor
  · intro hmay
    cases hmay with
    | own => exact absurd rfl hne
    | behalf _ hverify => exact answering_iff.mp hverify
    | between _ _ habsent _ => exact absurd rfl habsent
  · intro hanswer
    exact .behalf hg (answering_iff.mpr hanswer)

theorem hostRights (hp : p.IsHost authority host) (ha : PlainId authority) (hh : PlainId host)
    (hg : PlainId agent) (hhost : host ≠ authority) (hagent : agent ≠ authority)
    (hne : agent ≠ host) : HostRights answers name p authority host agent := by
  have habsent : '/' ∉ Topic.absent.toList := by decide
  have hany : '/' ∉ Topic.any.toList := by decide
  have hhears : Hears .subscribe Topic.any := fun _ => rfl
  have hhostSegment : Generator.senderSegment ⟨authority, host⟩ = host :=
    Generator.senderSegment_of_ne hhost
  have hagentSegment : Generator.senderSegment ⟨authority, agent⟩ = agent :=
    Generator.senderSegment_of_ne hagent
  -- the topics, segment by segment
  have hinbox : Generator.subscribeAsHost ⟨authority, host⟩ =
      Topic.event Topic.any authority host Topic.absent := by
    unfold Generator.subscribeAsHost
    rw [hhostSegment]
    rfl
  have hagentInbox : Generator.subscribeAsAgent ⟨authority, agent⟩ =
      Topic.event Topic.any authority Topic.absent agent := by
    unfold Generator.subscribeAsAgent
    rw [hagentSegment]
    rfl
  have hreport : ∀ {id : String}, Generator.senderSegment ⟨authority, id⟩ = id →
      Generator.publishToAuthority ⟨authority, id⟩ =
        Topic.event id authority Topic.absent Topic.absent := by
    intro id hid
    unfold Generator.publishToAuthority Generator.publishTo
    rw [hid]
    rfl
  have hcommand : ∀ {id : String}, Generator.senderSegment ⟨authority, id⟩ = id → ∀ other,
      Generator.publishToHost ⟨authority, id⟩ other =
        Topic.event id authority other Topic.absent := by
    intro id hid other
    unfold Generator.publishToHost Generator.publishTo
    rw [hid]
    rfl
  constructor
  case inbox =>
    rw [hinbox, host_may_listen_iff hany ha.slash_not_mem hh.slash_not_mem habsent hp ha hh
      (by decide)]
    exact ⟨hhears, rfl, .own⟩
  case report =>
    rw [hreport hhostSegment, host_may_write_iff hh.slash_not_mem ha.slash_not_mem habsent habsent
      hp ha hh]
    exact ⟨rfl, rfl, .inl .own⟩
  case agentInbox =>
    rw [hagentInbox, host_may_listen_iff hany ha.slash_not_mem habsent hg.slash_not_mem hp ha hh
      (by decide), mayHear_agent_iff hh.ne_absent hg.ne_absent]
    simp [hhears]
  case agentReport =>
    rw [hreport hagentSegment, host_may_write_iff hg.slash_not_mem ha.slash_not_mem habsent habsent
      hp ha hh, mayWrite_behalf_iff hne hg.ne_absent]
    simp [hg.ne_query]
  case noCommand =>
    intro sender hmem other hother
    have hsender : Generator.senderSegment ⟨authority, sender⟩ = sender ∧
        '/' ∉ sender.toList := by
      rcases List.mem_pair.mp hmem with rfl | rfl
      · exact ⟨hhostSegment, hh.slash_not_mem⟩
      · exact ⟨hagentSegment, hg.slash_not_mem⟩
    rw [hcommand hsender.1, host_may_write_iff hsender.2 ha.slash_not_mem hother.slash_not_mem
      habsent hp ha hh]
    intro hparts
    exact hother.ne_absent hparts.2.1
  case reads =>
    intro filter hfilter hsubscribe topic hmatches
    rcases List.mem_pair.mp hfilter with rfl | rfl
    · rw [hinbox] at hsubscribe hmatches
      exact host_may_read_of_subscribe ha.slash_not_mem hh.slash_not_mem habsent ha.ne_any
        hh.ne_any (by decide) hp ha hh hsubscribe hmatches
    · rw [hagentInbox] at hsubscribe hmatches
      exact host_may_read_of_subscribe ha.slash_not_mem habsent hg.slash_not_mem ha.ne_any
        (by decide) hg.ne_any hp ha hh hsubscribe hmatches

theorem authorityRights (hq : q.IsAuthority authority) (ha : PlainId authority) :
    AuthorityRights answers name q authority := by
  have habsent : '/' ∉ Topic.absent.toList := by decide
  have hany : '/' ∉ Topic.any.toList := by decide
  have hsegment : Generator.senderSegment ⟨authority, authority⟩ = Topic.absent :=
    Generator.senderSegment_of_eq rfl
  have hinbox : Generator.subscribeAsAuthority ⟨authority, authority⟩ =
      Topic.event Topic.any authority Topic.absent Topic.absent := rfl
  -- whatever it sends, it sends under the placeholder
  have htopic : ∀ host agent, Generator.publishTo ⟨authority, authority⟩ host agent =
      Topic.event Topic.absent authority (Address.segment host) (Address.segment agent) := by
    intro host agent
    unfold Generator.publishTo
    rw [hsegment]
  constructor
  case inbox =>
    rw [hinbox, authority_may_listen_iff hany ha.slash_not_mem habsent habsent hq ha (by decide)]
    exact ⟨fun _ => rfl, rfl, rfl, rfl⟩
  case toHost =>
    intro host hhost
    unfold Generator.publishToHost
    rw [htopic]
    simp only [Address.segment, Option.getD_some, Option.getD_none]
    rw [authority_may_write_iff habsent ha.slash_not_mem hhost.slash_not_mem habsent hq ha]
    exact ⟨rfl, rfl⟩
  case toAgent =>
    intro agent hagent
    unfold Generator.publishToAgent
    rw [htopic]
    simp only [Address.segment, Option.getD_some, Option.getD_none]
    rw [authority_may_write_iff habsent ha.slash_not_mem habsent hagent.slash_not_mem hq ha]
    exact ⟨rfl, rfl⟩
  case reads =>
    intro hsubscribe topic hmatches
    rw [hinbox] at hsubscribe hmatches
    exact authority_may_read_of_subscribe ha.slash_not_mem habsent habsent ha.ne_any (by decide)
      (by decide) hq ha hsubscribe hmatches

/-- **Masks and topics agree.**  Under distinct plain ids, and when every lookup has an answer, a
host and an authority may do with the topics of the participants just what the protocol needs. -/
theorem rights_of_plain_ids (hp : p.IsHost authority host) (hq : q.IsAuthority authority)
    (hplain : ∀ id ∈ [authority, host, agent], PlainId id)
    (hdistinct : [authority, host, agent].Nodup) (answers : Lookup → Bool) (name : String) :
    HostRights answers name p authority host agent ∧ AuthorityRights answers name q authority := by
  simp only [List.forall_mem_cons, List.not_mem_nil, false_imp_iff, implies_true, and_true] at hplain
  obtain ⟨ha, hh, hg⟩ := hplain
  simp only [List.nodup_cons, List.mem_cons, List.not_mem_nil, or_false, not_or, not_false_eq_true,
    List.nodup_nil, and_true] at hdistinct
  obtain ⟨⟨hhost, hagent⟩, hne⟩ := hdistinct
  exact ⟨hostRights hp ha hh hg (Ne.symm hhost) (Ne.symm hagent) (Ne.symm hne),
    authorityRights hq ha⟩

/-- A host that acts for an agent as its target but not as its source listens for the agent and does
not write for it. -/
theorem rights_of_plain_ids_one_lookup :
    let answers : Lookup → Bool := fun l => l = ⟨"h1", none, some "a1"⟩
    let p : Principal := ⟨[.host], some "h1", some "auth"⟩
    let q : Principal := ⟨[.authority], none, some "auth"⟩
    (∀ id ∈ ["auth", "h1", "a1"], PlainId id) ∧ ["auth", "h1", "a1"].Nodup ∧
      PlainId "h2" ∧ HostRights answers "client" p "auth" "h1" "a1" ∧
      AuthorityRights answers "client" q "auth" ∧
      May answers "client" p .subscribe "event/+/auth/-/a1" ∧
      ¬ May answers "client" p .write "event/a1/auth/-/-" ∧
      ¬ May answers "client" p .write "event/h1/auth/h2/-" ∧
      May answers "client" p .read "event/h2/auth/-/a1" := by
  intro answers p q
  have hplain : ∀ id ∈ ["auth", "h1", "a1"], PlainId id := by decide
  have hdistinct : ["auth", "h1", "a1"].Nodup := by decide
  have hp : p.IsHost "auth" "h1" := ⟨fun r => List.mem_singleton, rfl, rfl⟩
  have hq : q.IsAuthority "auth" := ⟨fun r => List.mem_singleton, rfl⟩
  have hother : PlainId "h2" := by decide
  obtain ⟨hhost, hauthority⟩ := rights_of_plain_ids hp hq hplain hdistinct answers "client"
  have hlistens := hhost.agentInbox.mpr (by decide)
  refine ⟨hplain, hdistinct, hother, hhost, hauthority, hlistens, ?_, ?_, ?_⟩
  · exact fun hmay => absurd (hhost.agentReport.mp hmay) (by decide)
  · exact hhost.noCommand "h1" (by decide) "h2" hother
  · exact hhost.reads _ (by simp) hlistens "event/h2/auth/-/a1" (by decide)

end plan

end Access

end Coordination
