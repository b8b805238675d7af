import Coordination.Proofs.Discovery.Origin
/-!
# Searching once and for all

A search asks for the same document again and again and waits in between, until an answer is
acceptable or it is given up.  What it finds is kept, and every later search gives it back without a
request.  Where the authority is not at an address of the web nothing is requested at all.  Main
statements: `exists_target?_documentUri_iff` and `search_once`.
-/

namespace Coordination

namespace Discovery

variable {d : Discovery} {e : Endpoints}

open Uri

/-! ## The address of the document -/

/-- The address at which the authority is reached. -/
def address (d : Discovery) : Uri := d.internalUri.getD d.authorityUri

theorem dropSlashes_append {front : List Char} (h : ∀ c ∈ front.getLast?, c ≠ '/')
    (back : List Char) : dropSlashes (front ++ back) = front ++ dropSlashes back :=
  dropEnd_append (fun c hc => decide_eq_false (h c hc)) back

theorem toList_documentUri (d : Discovery) :
    d.documentUri.toList = dropSlashes d.address.render.toList ++ documentPath.toList := by
  unfold documentUri address
  rw [String.toList_append, String.toList_ofList]

/-- The document is asked for under the scheme of the address. -/
theorem scheme_documentUri {text : String} (h : parse? text = some d.address) {v : Uri}
    (hv : parse? d.documentUri = some v) : v.scheme = d.address.scheme := by
  obtain ⟨_, haddress⟩ := scheme_of_parse? h
  have hscheme : IsScheme d.address.scheme := isScheme_of_scheme? haddress
  obtain ⟨rest, hv⟩ := scheme_of_parse? hv
  obtain ⟨back, hrender⟩ : ∃ back,
      d.address.render.toList = (d.address.scheme.toList ++ [':']) ++ back := by
    refine ⟨(d.address.authorityText true ++ d.address.pathText ++ d.address.queryText ++
      d.address.fragmentText).toList, ?_⟩
    simp [render]
  -- the address of the document begins as that of the authority does, up to the colon
  have hstart : d.documentUri.toList =
      (d.address.scheme.toList ++ [':']) ++ (dropSlashes back ++ documentPath.toList) := by
    rw [toList_documentUri, hrender, dropSlashes_append (by simp), List.append_assoc]
  have hlow : ∀ c ∈ d.address.scheme.toList ++ [':'], 0x20 < c.toNat := by
    intro c hc
    rcases List.mem_append.mp hc with hc | hc
    · exact hscheme.lt_toNat c hc
    · rw [List.mem_singleton.mp hc]
      decide
  rw [clean_append hstart (by simp) hlow, List.append_assoc, List.singleton_append,
    scheme?_append hscheme] at hv
  exact (congrArg Prod.fst (Option.some.inj hv)).symm

theorem isPrefix_dropSlashes (cs : List Char) : dropSlashes cs <+: cs := by
  rw [← List.reverse_suffix, dropSlashes, List.reverse_reverse]
  exact List.dropWhile_suffix _

/-- An address of the web is one of a document. -/
theorem parse?_documentUri (h : IsCanonical d.address) :
    ∃ v, parse? d.documentUri = some v ∧ v.scheme = d.address.scheme := by
  obtain ⟨segs, -, hne, hsegs, hrender⟩ := h.toList_render
  have hlast : ∀ c ∈ ((d.address.scheme.toList ++ [':', '/', '/']) ++
      d.address.placeChars).getLast?, c ≠ '/' := by
    rw [List.getLast?_append_of_ne_nil _ h.placeChars_ne_nil]
    rintro c hc rfl
    exact absurd (h.of_mem_placeChars _ (List.mem_of_getLast? hc)).2 (by decide)
  have htext : d.documentUri.toList = d.address.scheme.toList ++ ':' :: '/' :: '/' ::
      (d.address.placeChars ++
        (dropSlashes (tailChars segs d.address) ++ documentPath.toList)) := by
    -- slashes are dropped from the path at most, for no host or port ends in one
    have happend := dropSlashes_append hlast (tailChars segs d.address)
    simp only [List.append_assoc, List.cons_append, List.nil_append] at happend
    rw [toList_documentUri, hrender, happend]
    simp
  obtain ⟨dropped, hdropped⟩ := isPrefix_dropSlashes (tailChars segs d.address)
  refine ⟨_, h.parse?_place htext (fun c hc => ?_) (fun c hc => ?_), rfl⟩
  · rcases List.mem_append.mp hc with hc | hc
    · exact h.of_mem_tailChars hsegs c ((isPrefix_dropSlashes _).subset hc)
    · exact forall_mem_of_all (P := fun c => 0x20 < c.toNat) (by decide) c hc
  · have hslash : c = '/' := by
      cases hpath : dropSlashes (tailChars segs d.address) with
      | nil =>
        rw [hpath] at hc
        cases hc
        rfl
      | cons first more =>
        rw [hpath] at hc hdropped
        cases hc
        exact head?_tailChars hne d.address _ (by rw [← hdropped]; rfl)
    rw [hslash]
    decide

/-- **What is requested.**  The document is requested exactly if the authority is reached at an
address of the web. -/
theorem exists_target?_documentUri_iff {text : String} (h : parse? text = some d.address) :
    (∃ uri, target? d.documentUri = some uri) ↔
      d.address.scheme = "http" ∨ d.address.scheme = "https" := by
  constructor
  · rintro ⟨uri, huri⟩
    obtain ⟨v, hv, hscheme⟩ := Option.bind_eq_some_iff.mp huri
    rw [Option.ite_none_right_eq_some] at hscheme
    rw [← scheme_documentUri h hv]
    exact hscheme.1
  · intro hweb
    have hcanonical : IsCanonical d.address := .of_parse? h (isSome_defaultPort? hweb)
    obtain ⟨v, hv, hscheme⟩ := parse?_documentUri hcanonical
    refine ⟨v.requestText, ?_⟩
    unfold target?
    rw [hv, Option.bind_some, hscheme, if_pos hweb]

/-! ## Acceptable answers -/

/-- A token endpoint as it is reached: through the other address, if there is one. -/
def reach (d : Discovery) (endpoint : String) : Except Error String :=
  match d.internalUri with
  | some internal => endpointThrough endpoint internal
  | none => .ok endpoint

/-- An answer is acceptable and gives these endpoints: neither the client nor the server is said to
have failed, the document names a broker unless one takes its place, and it names a token endpoint
that can be reached. -/
structure Accepts (d : Discovery) (r : WebReply) (e : Endpoints) : Prop where
  status : ¬ (400 ≤ r.status ∧ r.status < 600)
  document : ∃ doc endpoint, r.document?.bind EndpointDocument.ofDocument? = some doc ∧
    d.brokerOverride.or doc.brokerUri = some e.brokerUri ∧ doc.tokenEndpoint = some endpoint ∧
    d.reach endpoint = .ok e.tokenEndpoint

/-- An answer with all names is acceptable if its token endpoint can be reached. -/
theorem ofReply_of_names {r : WebReply} {doc : EndpointDocument} {broker endpoint : String}
    (hstatus : ¬ r.isFailure = true)
    (hdoc : r.document?.bind EndpointDocument.ofDocument? = some doc)
    (hbroker : d.brokerOverride.or doc.brokerUri = some broker)
    (hendpoint : doc.tokenEndpoint = some endpoint) :
    d.ofReply r = (d.reach endpoint).map (Endpoints.mk broker) := by
  unfold ofReply reach
  rw [if_neg hstatus, hdoc]
  dsimp only
  rw [hbroker, hendpoint]
  cases d.internalUri <;> rfl

theorem ofReply_eq_ok_iff {r : WebReply} : d.ofReply r = .ok e ↔ d.Accepts r e := by
  have hfailure : r.isFailure = true ↔ 400 ≤ r.status ∧ r.status < 600 := by
    simp [WebReply.isFailure]
  constructor
  · intro h
    -- whatever is missing makes it fail
    have h' := h
    unfold ofReply at h'
    split at h'
    · cases h'
    · next hstatus =>
      split at h'
      · cases h'
      · next doc hdoc =>
        split at h'
        · cases h'
        · next broker hbroker =>
          split at h'
          · cases h'
          · next endpoint hendpoint =>
            rw [ofReply_of_names hstatus hdoc hbroker hendpoint] at h
            cases hreach : d.reach endpoint with
            | error err =>
              rw [hreach] at h
              cases h
            | ok token =>
              rw [hreach] at h
              cases h
              exact ⟨mt hfailure.mpr hstatus, doc, endpoint, hdoc, hbroker, hendpoint, hreach⟩
  · rintro ⟨hstatus, doc, endpoint, hdoc, hbroker, hendpoint, hreach⟩
    rw [ofReply_of_names (mt hfailure.mp hstatus) hdoc hbroker hendpoint, hreach]
    rfl

theorem ofReply_eq_error {r : WebReply} (h : ∀ e, ¬ d.Accepts r e) :
    ∃ err, d.ofReply r = .error err := by
  cases hreply : d.ofReply r with
  | ok e => exact absurd (ofReply_eq_ok_iff.mp hreply) (h e)
  | error err => exact ⟨err, rfl⟩

theorem not_accepts_of_toBool {r : WebReply} (h : ¬ (d.ofReply r).toBool = true)
    (e : Endpoints) : ¬ d.Accepts r e := by
  intro haccepts
  rw [ofReply_eq_ok_iff.mpr haccepts] at h
  exact h rfl

/-! ## One search -/

/-- What is done for answers that are refused: each time the document is asked for at the one
address, from where the client follows redirects, and the next delay is waited. -/
def failures (uri : String) (delays : List Duration) (refused : List WebReply) : List Move :=
  (delays.zip refused).flatMap fun (delay, r) => [.request uri r.hops, .wait delay]

/-- Answers that are not acceptable cost one request and one delay each. -/
theorem attempt_append (uri : String) (ending : GivenUp) {refused : List WebReply}
    (h : ∀ r ∈ refused, ∀ e, ¬ d.Accepts r e) (delay : Duration) (replies : List WebReply) :
    ∃ next, d.attempt uri ending delay (refused ++ replies) =
      { d.attempt uri ending next replies with
        moves := failures uri (d.backoff.delaysFrom refused.length delay) refused ++
          (d.attempt uri ending next replies).moves } := by
  induction refused generalizing delay with
  | nil => exact ⟨delay, rfl⟩
  | cons r refused ih =>
    obtain ⟨hr, hrefused⟩ := List.forall_mem_cons.mp h
    obtain ⟨err, herr⟩ := ofReply_eq_error hr
    obtain ⟨next, hnext⟩ := ih hrefused (d.backoff.next delay)
    refine ⟨next, ?_⟩
    rw [List.cons_append, attempt, herr]
    dsimp only
    rw [hnext]
    rfl

/-- One call: how it is given up once no answer is left, and the answers that come until then. -/
structure Call where
  ending : GivenUp
  replies : List WebReply

def ask (d : Discovery) (call : Call) : Discovery := d.keep (d.search call.ending call.replies)

/-- Every search over the web is a call: it gives what the call gives, keeps what it keeps, and
sends what is asked for in it. -/
theorem exists_call_locate (d : Discovery) (w : Web) :
    ∃ call : Call, (d.locate w).1 = (d.search call.ending call.replies).result ∧
      (d.locate w).2.1 = d.ask call ∧ (d.locate w).2.2.sent =
        w.sent ++ requests (d.search call.ending call.replies).moves := by
  unfold locate
  dsimp only
  split
  · exact ⟨⟨.beforeRequest, []⟩, rfl, rfl, rfl⟩
  · split
    · exact ⟨⟨.duringRequest [], w.gets⟩, rfl, rfl, rfl⟩
    · next n _ => exact ⟨⟨.beforeRequest, w.getsWithin n⟩, rfl, rfl, rfl⟩

/-- How a call ends while nothing has been found. -/
inductive Ends (d : Discovery) (b : Backoff) (call : Call) : Outcome → Prop where
  /-- The first acceptable answer ends it; one request was sent for every answer, apart from those by
  which the client followed redirects, and none is sent for those that are left over. -/
  | found {uri : String} {refused : List WebReply} {r : WebReply} {rest : List WebReply}
      {e : Endpoints} :
    Uri.target? d.documentUri = some uri → call.replies = refused ++ r :: rest →
      (∀ x ∈ refused, ∀ e, ¬ d.Accepts x e) → d.Accepts r e →
      Ends d b call
        ⟨.ok e, failures uri (b.delays refused.length) refused ++ [.request uri r.hops], rest⟩
  /-- It was given up before an answer was acceptable, while it waited or while it was to be
  answered. -/
  | givenUp {uri : String} :
    Uri.target? d.documentUri = some uri → (∀ x ∈ call.replies, ∀ e, ¬ d.Accepts x e) →
      Ends d b call
        ⟨.error .cancelled, failures uri (b.delays call.replies.length) call.replies ++
          (match call.ending with
          | .beforeRequest => []
          | .duringRequest hops => [.request uri hops]), []⟩
  /-- Nothing can be requested, and it was given up after all. -/
  | unreachable :
    d.address.scheme ≠ "http" → d.address.scheme ≠ "https" →
      Ends d b call ⟨.error .cancelled, [], call.replies⟩

/-- The attempts of a call, taken apart at the first answer that is acceptable. -/
theorem ends_attempt {uri : String} (h : Uri.target? d.documentUri = some uri) (call : Call) :
    d.Ends d.backoff call (d.attempt uri call.ending d.backoff.first call.replies) := by
  rcases call with ⟨ending, replies⟩
  -- the answers up to the first acceptable one, if there is one
  cases hfind : replies.find? fun r => (d.ofReply r).toBool with
  | none =>
    have hall : ∀ x ∈ replies, ∀ e, ¬ d.Accepts x e := fun x hx =>
      not_accepts_of_toBool (List.find?_eq_none.mp hfind x hx)
    obtain ⟨next, hnext⟩ := attempt_append uri ending hall d.backoff.first []
    rw [List.append_nil] at hnext
    dsimp only
    rw [hnext]
    exact .givenUp h hall
  | some r =>
    obtain ⟨hr, refused, rest, rfl, hrefused⟩ := List.find?_eq_some_iff_append.mp hfind
    have hall : ∀ x ∈ refused, ∀ e, ¬ d.Accepts x e := fun x hx =>
      not_accepts_of_toBool (by simpa using hrefused x hx)
    cases hreply : d.ofReply r with
    | error err =>
      rw [hreply] at hr
      cases hr
    | ok e =>
      obtain ⟨next, hnext⟩ := attempt_append uri ending hall d.backoff.first (r :: rest)
      have hlast : d.attempt uri ending next (r :: rest) = ⟨.ok e, [.request uri r.hops], rest⟩ := by
        rw [attempt, hreply]
      rw [hlast] at hnext
      dsimp only
      rw [hnext]
      exact .found h rfl hall (ofReply_eq_ok_iff.mp hreply)

/-! ## All searches -/

/-- A search learns nothing but the endpoints. -/
theorem keep_eq (d : Discovery) (o : Outcome) :
    d.keep o = { d with endpoints := o.result.toOption.or d.endpoints } := by
  unfold keep
  cases o.result <;> rfl

theorem foldl_ask_eq (d : Discovery) (calls : List Call) :
    ∃ endpoints, calls.foldl ask d = { d with endpoints } := by
  induction calls generalizing d with
  | nil => exact ⟨d.endpoints, rfl⟩
  | cons call calls ih =>
    obtain ⟨endpoints, h⟩ := ih (d.ask call)
    refine ⟨endpoints, ?_⟩
    rw [List.foldl_cons, h, ask, keep_eq]

theorem search_of_endpoints (h : d.endpoints = some e) (ending : GivenUp)
    (replies : List WebReply) : d.search ending replies = ⟨.ok e, [], replies⟩ := by
  unfold search
  rw [h]

/-- What was found once stays, whoever asks for it. -/
theorem endpoints_foldl_ask (h : d.endpoints = some e) (calls : List Call) :
    (calls.foldl ask d).endpoints = some e := by
  induction calls generalizing d with
  | nil => exact h
  | cons call calls ih =>
    refine ih ?_
    rw [ask, search_of_endpoints h]
    rfl

/-- What is kept after a call is what the call gave. -/
theorem endpoints_ask (d : Discovery) (call : Call) :
    (d.ask call).endpoints = (d.search call.ending call.replies).result.toOption := by
  rw [ask, keep_eq]
  cases h : d.endpoints with
  | none => rw [Option.or_none]
  | some e =>
    rw [search_of_endpoints h]
    rfl

/-- A search that has found nothing ends in one of three ways. -/
theorem ends_search (hnone : d.endpoints = none) {text : String}
    (htext : parse? text = some d.address) (call : Call) :
    d.Ends d.backoff call (d.search call.ending call.replies) := by
  unfold search
  rw [hnone]
  dsimp only
  have hreachable := exists_target?_documentUri_iff htext
  cases htarget : target? d.documentUri with
  | none =>
    rw [htarget] at hreachable
    refine .unreachable (fun hscheme => ?_) fun hscheme => ?_
    · obtain ⟨uri, huri⟩ := hreachable.mpr (.inl hscheme)
      cases huri
    · obtain ⟨uri, huri⟩ := hreachable.mpr (.inr hscheme)
      cases huri
  | some uri => exact ends_attempt htarget call

/-- **Once and for all.**  After any calls on a new search, the broker is the one that takes
precedence, if it is not empty, and otherwise the one that was found.  While nothing was found, the
next call ends with the first acceptable answer or when it is given up, with the delays of a fresh
sequence in between.  What it gives is what is kept; and once a call gave endpoints, every later one
gives the same at once, even if it is asked to give up, and without a request. -/
theorem search_once {config : DiscoveryConfig} (hd : create config = .ok d) (before : List Call)
    (call : Call) :
    let known := before.foldl ask d
    let outcome := known.search call.ending call.replies
    (known.endpoints = none → d.Ends (.withMax config.maxBackoff) call outcome) ∧
      (∀ e, known.endpoints = some e → outcome = ⟨.ok e, [], call.replies⟩) ∧
      (known.ask call).endpoints = outcome.result.toOption ∧
      (∀ e, outcome.result = .ok e → ∀ (after : List Call) (later : Call),
        (after.foldl ask (known.ask call)).search later.ending later.replies =
          ⟨.ok e, [], later.replies⟩) ∧
      known.brokerUri? = (config.brokerUri.filter (· ≠ "")).or
        (known.endpoints.map Endpoints.brokerUri) := by
  intro known outcome
  obtain ⟨hauthority, -, hinternal, hoverride, hbackoff, hfresh⟩ := of_create hd
  obtain ⟨endpoints, hknown⟩ : ∃ endpoints, known = { d with endpoints } := foldl_ask_eq d before
  -- the address at which the authority is reached was read from a text in either case
  have haddress : ∃ text, parse? text = some d.address := by
    unfold address
    cases hother : d.internalUri with
    | none => exact ⟨_, hauthority⟩
    | some other =>
      obtain ⟨text, -, htext⟩ := Option.bind_eq_some_iff.mp (hinternal.symm.trans hother)
      exact ⟨text, htext⟩
  refine ⟨fun hnone => ?_, fun e he => search_of_endpoints he _ _, endpoints_ask known call,
    fun e he after later => search_of_endpoints (endpoints_foldl_ask ?_ after) _ _, ?_⟩
  · -- the search is still the new one
    have hsame : known = d := by
      rw [hknown] at hnone ⊢
      rw [show endpoints = none from hnone, ← hfresh]
    obtain ⟨text, htext⟩ := haddress
    have hends := ends_search hfresh htext call
    rw [hbackoff] at hends
    exact hsame ▸ hends
  · rw [endpoints_ask, he]
    rfl
  · rw [hknown, brokerUri?, hoverride]

/-- A call that is given up while it waits after a refusal, one that finds the endpoints at its
second request, from where the client was sent to another address, and one that is given up from the
start and gets them all the same. -/
theorem search_once_third_request :
    let d : Discovery :=
      { id := "auth.example.com"
        authorityUri := { scheme := "http", host := some "auth.example.com", path := .rooted [""] }
        internalUri := none, brokerOverride := none, backoff := .withMax Backoff.defaultMax }
    let uri := "http://auth.example.com/.well-known/openid-configuration"
    let document := "\x7b\"broker_uri\":\"b\",\"token_endpoint\":\"t\"\x7d"
    let elsewhere : WebRequest := .get "http://www.example.com/"
    let before : List Call := [⟨.beforeRequest, [{ status := 404, body := "" }]⟩]
    let call : Call :=
      ⟨.duringRequest [], [{ status := 500, body := document },
        { body := document, hops := [elsewhere] }]⟩
    let known := before.foldl ask d
    let outcome := known.search call.ending call.replies
    create { authorityUri := "http://auth.example.com", brokerUri := some "" } = .ok d ∧
      d.Ends (.withMax Backoff.defaultMax) call outcome ∧ outcome.result = .ok ⟨"b", "t"⟩ ∧
      outcome.moves = [.request uri [], .wait (.ofSeconds 1), .request uri [elsewhere]] ∧
      (∀ (after : List Call) (later : Call),
        (after.foldl ask (known.ask call)).search later.ending later.replies =
          ⟨.ok ⟨"b", "t"⟩, [], later.replies⟩) ∧
      (known.ask call).endpoints = some ⟨"b", "t"⟩ ∧ known.brokerUri? = none := by
  intro d uri document elsewhere before call known outcome
  have hcreate : create { authorityUri := "http://auth.example.com", brokerUri := some "" } =
      .ok d := by
    decide +kernel
  have hnone : known.endpoints = none := by decide +kernel
  have hfound : outcome.result = .ok ⟨"b", "t"⟩ := by decide +kernel
  -- before the call, one attempt of an earlier call was refused
  obtain ⟨hends, -, hkept, hagain, hbroker⟩ := search_once hcreate before call
  refine ⟨hcreate, hends hnone, hfound, ?_, hagain _ hfound, ?_, ?_⟩
  · decide +kernel
  · exact hkept.trans (congrArg Except.toOption hfound)
  · rw [hbroker, hnone]
    decide

/-- An answer of the status 300 is not one of success, and is acceptable all the same: its document
counts, and the answer behind it is left over.  Where the client is sent to another address, one
attempt asks at two of them.  And where the authority is at an address that is not one of the web,
nothing is requested, whatever would be answered. -/
theorem search_takes_choices :
    let document := "\x7b\"broker_uri\":\"b\",\"token_endpoint\":\"t\"\x7d"
    let reply : WebReply := { status := 300, body := document }
    let success : WebReply := { body := document }
    let uri := "http://auth.example.com/.well-known/openid-configuration"
    let elsewhere := "http://www.example.com/"
    ∃ d other, create { authorityUri := "http://auth.example.com" } = .ok d ∧
      create { authorityUri := "nats://broker:4222" } = .ok other ∧ reply.isSuccess = false ∧
      (d.search .beforeRequest [reply, success]).result = .ok ⟨"b", "t"⟩ ∧
      (d.search .beforeRequest [reply, success]).unused = [success] ∧
      requests (d.search .beforeRequest [{ success with hops := [.get elsewhere] }]).moves =
        [.get uri, .get elsewhere] ∧
      (other.search .beforeRequest [success]).result = .error .cancelled ∧
      (other.search .beforeRequest [success]).moves = [] := by
  refine ⟨
    { id := "auth.example.com"
      authorityUri := { scheme := "http", host := some "auth.example.com", path := .rooted [""] }
      internalUri := none, brokerOverride := none, backoff := .standard },
    { id := "broker"
      authorityUri :=
        { scheme := "nats", host := some "broker", port := some 4222, path := .rooted [] }
      internalUri := none, brokerOverride := none, backoff := .standard }, ?_⟩
  decide +kernel

end Discovery

end Coordination
