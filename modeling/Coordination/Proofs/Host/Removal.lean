import Coordination.Proofs.Event.RoundTrip
import Coordination.Proofs.Host.Runs
import Coordination.Proofs.Topic.Routing
import Coordination.Proofs.Uri.Hosts
/-!
# Removing an agent by a message

The authority has a host stop an agent by a message that names the agent.  The message reaches the
host under a topic that has room for one segment only, and it names the agent by a text that readers
look into: a text that quotes another is taken for the other, and a blank one is refused.  This
module says which live agents such a message removes, whatever brought the host where it is.
-/

namespace Coordination

open Json

/-! ## Reading an instruction to stop -/

/-- What a text member is read as: the text that it quotes, or itself if it quotes none. -/
def Json.ReadAs (s text : String) : Prop := Quotes s text ∨ ¬ IsQuoted s ∧ text = s

/-- A text is read as itself exactly if it quotes nothing. -/
theorem Json.readAs_self_iff {s : String} : ReadAs s s ↔ ¬ IsQuoted s := by
  constructor
  · rintro (hquotes | ⟨hplain, -⟩)
    · exact absurd rfl hquotes.ne
    · exact hplain
  · exact fun hplain => .inr ⟨hplain, rfl⟩

namespace Event

/-- A text member is read in one way. -/
theorem field_text_iff {data : Members} {key s text : String}
    (hget : data.get? key = some (.string s)) :
    field Document.text? data key = .ok text ↔ ReadAs s text := by
  by_cases hs : IsQuoted s
  · obtain ⟨other, hother⟩ := hs
    rw [field_text_of_quotes hget hother]
    constructor
    -- reading is a function, so the text quotes no other one
    · intro heq
      cases heq
      exact .inl hother
    · rintro (hquotes | ⟨hplain, -⟩)
      · rw [← field_text_of_quotes hget hother, field_text_of_quotes hget hquotes]
      · exact absurd ⟨other, hother⟩ hplain
  · rw [field_text_of_not_isQuoted hget hs]
    constructor
    · intro heq
      cases heq
      exact .inr ⟨hs, rfl⟩
    · rintro (hquotes | ⟨-, rfl⟩)
      · exact absurd ⟨text, hquotes⟩ hs
      · rfl

/-- An instruction to stop an agent is read as one to stop the agent as which its id is read, unless
that is blank. -/
theorem decode_agentDisconnect_iff {agentId timestamp : String} {e : Event} :
    decode ((agentDisconnect agentId).toData timestamp) = .ok e ↔
      ∃ other, ReadAs agentId other ∧ ¬ Text.isBlank other ∧ e = agentDisconnect other := by
  have hget := get?_toData (agentDisconnect agentId) timestamp
  have htype : ((agentDisconnect agentId).toData timestamp).get? "type" =
      some (.string "agent_disconnect") := hget "type"
  have hfield : ∀ text, field Document.text? ((agentDisconnect agentId).toData timestamp)
      "agent_id" = .ok text ↔ ReadAs agentId text := fun text => field_text_iff (hget "agent_id")
  -- the type decides which members are read; here it is the id alone
  have hshape : decode ((agentDisconnect agentId).toData timestamp) =
      decodeAs "agent_disconnect" ((agentDisconnect agentId).toData timestamp) := by
    unfold decode
    rw [htype]
    exact if_neg (by decide)
  rw [hshape]
  unfold decodeAs
  simp only [String.reduceEq, reduceIte]
  constructor
  · intro hdecode
    obtain ⟨other, hother, hrest⟩ := bind_eq_ok_iff.mp hdecode
    obtain ⟨_, hcheck, hret⟩ := bind_eq_ok_iff.mp hrest
    cases hret
    refine ⟨other, (hfield other).mp hother, fun hblank => ?_, rfl⟩
    unfold nonEmpty at hcheck
    rw [if_pos hblank] at hcheck
    cases hcheck
  · rintro ⟨other, hread, hblank, rfl⟩
    exact bind_eq_ok_iff.mpr ⟨other, (hfield other).mpr hread,
      bind_eq_ok_iff.mpr ⟨(), nonEmpty_of_not_isBlank hblank, rfl⟩⟩

end Event

/-- The sender of a message with data is the one that its topic names. -/
theorem Message.senderId_ofData (topic : String) (data : Members) :
    (ofData topic data).senderId = Topic.senderOf topic := rfl

namespace Host

/-! ## Names -/

/-- A host and its authority have ids, and that of the authority is one segment. -/
structure Named (h : Host) : Prop where
  id : h.id ≠ ""
  authority : h.topics.authorityId ≠ ""
  segment : '/' ∉ h.topics.authorityId.toList

theorem Named.of_sameSelf {h h' : Host} (hn : h.Named) (hsame : h.SameSelf h') : h'.Named := by
  refine ⟨?_, ?_, ?_⟩
  · rw [hsame.id]
    exact hn.id
  · rw [hsame.topics]
    exact hn.authority
  · rw [hsame.topics]
    exact hn.segment

theorem named_create {config : HostConfig} {factory : AgentFactory} {h : Host}
    (hcreate : create config factory = .ok h) : h.Named := by
  obtain ⟨discovery, hblank, hdiscovery, rfl⟩ := exists_discovery_of_create hcreate
  obtain ⟨hne, hsegment⟩ := Discovery.id_of_create hdiscovery
  refine ⟨?_, hne, hsegment⟩
  -- a blank id is refused, and so is an empty one
  rintro (hempty : config.hostId = "")
  rw [hempty] at hblank
  exact hblank Text.isBlank_empty

theorem Named.run {h : Host} (hn : h.Named) (ops : List Operation) :
    (ops.foldl Host.perform h).Named := by
  induction ops generalizing h with
  | nil => exact hn
  | cons op ops ih => exact ih (hn.of_sameSelf (h.sameSelf_perform op))

/-! ## The message -/

def removal (h : Host) (agentId timestamp : String) : Message :=
  Message.ofData (Generator.publishToHost ⟨h.topics.authorityId, h.topics.authorityId⟩ h.id)
    ((Event.agentDisconnect agentId).toData timestamp)

/-- The message comes from the authority if the id of the host is one segment, and from nobody
otherwise. -/
theorem senderId_removal {h : Host} (hn : h.Named) (agentId timestamp : String) :
    (h.removal agentId timestamp).senderId =
      if '/' ∈ h.id.toList then none else some h.topics.authorityId := by
  have htopic : Generator.publishToHost ⟨h.topics.authorityId, h.topics.authorityId⟩ h.id =
      Topic.event Topic.absent h.topics.authorityId h.id Topic.absent := by
    unfold Generator.publishToHost Generator.publishTo
    rw [Generator.senderSegment, if_pos rfl]
    rfl
  unfold removal
  rw [Message.senderId_ofData, htopic]
  split
  · next hslash =>
    -- the id of the host takes more than the one segment that there is for it
    have hparse : Address.parse?
        (Topic.event Topic.absent h.topics.authorityId h.id Topic.absent) = none := by
      by_contra hsome
      obtain ⟨a, ha⟩ := Option.ne_none_iff_exists'.mp hsome
      exact (Address.slash_not_mem_of_parse?_event ha).2.2.1 hslash
    rw [Topic.senderOf, hparse]
    rfl
  · next hslash =>
    rw [Topic.senderOf_event (by decide) hn.segment hslash (by decide), if_pos rfl]
    rintro (habsent | hauthority | hid | habsent)
    · exact absurd habsent (by decide)
    · exact hn.authority hauthority
    · exact hn.id hid
    · exact absurd habsent (by decide)

/-- The host stops the agent as which the id is read; without one it does nothing. -/
theorem handle_removal {h : Host} (hn : h.Named) (hslash : '/' ∉ h.id.toList)
    (agentId timestamp : String) :
    (∃ other, ReadAs agentId other ∧ ¬ Text.isBlank other ∧
      h.handle (h.removal agentId timestamp) = (h.agentDisconnect other).2) ∨
    (∀ other, ReadAs agentId other → Text.isBlank other) ∧
      h.handle (h.removal agentId timestamp) = h := by
  have hsender : (h.removal agentId timestamp).senderId = some h.topics.authorityId := by
    rw [senderId_removal hn, if_neg hslash]
  have hdecode : (h.removal agentId timestamp).decode =
      Event.decode ((Event.agentDisconnect agentId).toData timestamp) := rfl
  have hread : ∀ e, Event.decode ((Event.agentDisconnect agentId).toData timestamp) = .ok e ↔
      ∃ other, ReadAs agentId other ∧ ¬ Text.isBlank other ∧ e = .agentDisconnect other :=
    fun _ => Event.decode_agentDisconnect_iff
  unfold handle
  rw [if_pos hsender, hdecode]
  cases hresult : Event.decode ((Event.agentDisconnect agentId).toData timestamp) with
  | error e =>
    -- had the id been read as anything but a blank, the message would say so
    refine .inr ⟨fun other hother => ?_, rfl⟩
    by_contra hblank
    have hok := (hread _).mpr ⟨other, hother, hblank, rfl⟩
    exact nomatch hresult.symm.trans hok
  | ok e =>
    obtain ⟨other, hother, hblank, rfl⟩ := (hread e).mp hresult
    exact .inl ⟨other, hother, hblank, rfl⟩

/-! ## Live agents -/

/-- Stopping an agent takes it, and no other one, out of the live ones. -/
theorem mem_agentIds_agentDisconnect {h : Host} {id other : String} :
    other ∈ (h.agentDisconnect id).2.agentIds ↔ other ∈ h.agentIds ∧ other ≠ id := by
  have hends := h.ends_agentDisconnect id
  generalize (h.agentDisconnect id).2 = h' at hends ⊢
  cases hends with
  | unknown hdead =>
    refine ⟨fun hmem => ⟨hmem, fun heq => hdead (heq ▸ hmem)⟩, And.left⟩
  | ended _ _ _ hagents _ => exact mem_agentIds_filter hagents

/-- **Which agents the authority can remove.**  However a host came where it is, and whatever
factory it has: the message that tells it to stop a live agent has the agent stopped exactly if the
id of the host is one segment, and the id of the agent is neither blank nor the JSON of a text. -/
theorem not_mem_handle_removal_iff {config : HostConfig} {factory : AgentFactory} {h₀ : Host}
    (hcreate : create config factory = .ok h₀) (ops : List Operation) {id : String}
    (hlive : id ∈ (ops.foldl Host.perform h₀).agentIds) (timestamp : String) :
    let h := ops.foldl Host.perform h₀
    id ∉ (h.handle (h.removal id timestamp)).agentIds ↔
      '/' ∉ h.id.toList ∧ ¬ Text.isBlank id ∧ ¬ IsQuoted id := by
  intro h
  have hn : h.Named := (named_create hcreate).run ops
  constructor
  · intro hremoved
    -- a message from nobody is not heeded
    have hslash : '/' ∉ h.id.toList := by
      intro hmem
      refine hremoved ?_
      unfold handle
      rw [senderId_removal hn, if_pos hmem, if_neg (Option.some_ne_none _).symm]
      exact hlive
    obtain ⟨other, hread, hblank, heq⟩ | ⟨-, heq⟩ := handle_removal hn hslash id timestamp
    · rw [heq, mem_agentIds_agentDisconnect, not_and_not_right] at hremoved
      -- only the agent that is named is removed, so the id is read as itself
      obtain rfl := hremoved hlive
      exact ⟨hslash, hblank, readAs_self_iff.mp hread⟩
    · rw [heq] at hremoved
      exact absurd hlive hremoved
  · rintro ⟨hslash, hblank, hplain⟩
    obtain ⟨other, hread, -, heq⟩ | ⟨hblanks, -⟩ := handle_removal hn hslash id timestamp
    · rw [heq, mem_agentIds_agentDisconnect]
      rintro ⟨-, hne⟩
      obtain hquotes | ⟨-, rfl⟩ := hread
      · exact hplain ⟨other, hquotes⟩
      · exact hne rfl
    · exact absurd (hblanks id (readAs_self_iff.mpr hplain)) hblank

/-- A host that was welcomed with one agent, and then told to stop it. -/
theorem not_mem_handle_removal_iff_welcomed :
    let config : HostConfig :=
      { discovery := { authorityUri := "http://auth" }, hostId := "h1", hostSecret := "s" }
    let ops : List Operation :=
      [.handle (.ofData (Generator.publishToHost ⟨"auth", "auth"⟩ "h1")
        ((Event.hostWelcome { id := "h1" } [] [{ id := "a" }]).toData "now"))]
    ∃ h₀, create config .recording = .ok h₀ ∧ "a" ∈ (ops.foldl Host.perform h₀).agentIds ∧
      let h := ops.foldl Host.perform h₀
      ("a" ∉ (h.handle (h.removal "a" "now")).agentIds ↔
        '/' ∉ h.id.toList ∧ ¬ Text.isBlank "a" ∧ ¬ IsQuoted "a") := by
  intro config ops
  have hrun : (create config .recording).map (fun h => (ops.foldl Host.perform h).agentIds) =
      .ok ["a"] := by decide +kernel
  cases hcreate : create config .recording with
  | error e =>
    rw [hcreate] at hrun
    cases hrun
  | ok h₀ =>
    rw [hcreate] at hrun
    -- after the welcome the agent is live
    have hids : (ops.foldl Host.perform h₀).agentIds = ["a"] := Except.ok.inj hrun
    have hlive : "a" ∈ (ops.foldl Host.perform h₀).agentIds := by
      rw [hids]
      exact List.mem_singleton_self "a"
    exact ⟨h₀, rfl, hlive, not_mem_handle_removal_iff hcreate ops hlive "now"⟩

/-- A welcome admits an agent whose id is blank, and one whose id is the JSON of a text.  The
messages that name them remove neither, although the factory never fails. -/
theorem blank_and_quoted_agents_stay :
    let config : HostConfig :=
      { discovery := { authorityUri := "http://auth" }, hostId := "h1", hostSecret := "s" }
    let m := Message.ofData (Generator.publishToHost ⟨"auth", "auth"⟩ "h1")
      ((Event.hostWelcome { id := "h1" } [] [{ id := " " }, { id := "\"a\"" }]).toData "now")
    AgentFactory.recording.NeverFails ∧ ∃ h, create config .recording = .ok h ∧
      (h.handle m).agentIds = [" ", "\"a\""] ∧
      ∀ id ∈ (h.handle m).agentIds,
        id ∈ ((h.handle m).handle ((h.handle m).removal id "now")).agentIds := by
  intro config m
  refine ⟨⟨fun _ _ _ _ => rfl, fun _ _ hkind => nomatch hkind⟩, ?_⟩
  -- the welcome and both removals are computed
  have hrun : (create config .recording).map (fun h => ((h.handle m).agentIds,
      ((h.handle m).agentIds.all fun id =>
        id ∈ ((h.handle m).handle ((h.handle m).removal id "now")).agentIds))) =
      .ok ([" ", "\"a\""], true) := by decide +kernel
  cases hcreate : create config .recording with
  | error e =>
    rw [hcreate] at hrun
    cases hrun
  | ok h =>
    rw [hcreate] at hrun
    obtain ⟨hids, hstay⟩ := Prod.mk.inj (Except.ok.inj hrun)
    exact ⟨h, rfl, hids, fun id hid => of_decide_eq_true (List.all_eq_true.mp hstay id hid)⟩

end Host

end Coordination
