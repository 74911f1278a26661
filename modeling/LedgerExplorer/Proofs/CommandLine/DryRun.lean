import LedgerExplorer.Proofs.CommandLine.Results
import LedgerExplorer.Proofs.Session.Entities
import LedgerExplorer.Proofs.Session.Isolation

/-!
# Showing requests instead of sending them

A command that shows its request goes the same way as the command that sends it, up to the point where
one describes the request and the other starts its session. So whatever keeps one of them from its
request keeps the other from it, and what is shown is what is sent (`CommandLine.Foretells`).
-/

namespace LedgerExplorer

variable {R E : Type} {files : String → Except FileError String} {replies : String → HttpReply}

namespace CommandLine

/-! ## Asking for nothing -/

theorem urls_configOf (env : Environment) (path : String) (content : Except FileError String) :
    urls files replies (configOf env path content) = [] :=
  urls_bind_eq_nil (urls_orFail _ _) fun _ => rfl

theorem urls_readConfig (env : Environment) (named : Option String) :
    urls files replies (readConfig env named) = [] := by
  unfold readConfig
  split
  · next path _ => exact urls_configOf env path (files path)
  · refine urls_bind_eq_nil rfl fun content => ?_
    split
    · rfl
    · exact urls_configOf _ _ _

theorem urls_loadConfig (env : Environment) (common : Common) :
    urls files replies (loadConfig env common) = [] :=
  urls_bind_eq_nil (urls_readConfig _ _) fun _ => urls_bind_eq_nil (urls_orFail _ _) fun _ => rfl

theorem urls_filtersOf (c : Collection) (specs : List String) :
    urls files replies (filtersOf c specs) = [] := by
  induction specs with
  | nil => rfl
  | cons spec specs ih =>
    exact urls_bind_eq_nil (urls_orFail _ _) fun _ => urls_bind_eq_nil ih fun _ => rfl

theorem urls_queryOf (c : Collection) (paging : Paging) (config : Config) :
    urls files replies (queryOf c paging config) = [] := by
  refine urls_bind_eq_nil (urls_filtersOf _ _) fun filters => ?_
  dsimp only
  split
  · rfl
  · exact urls_bind_eq_nil (urls_orElse _ _) fun _ => rfl

/-! ## What a session asks for -/

theorem run_answerCalls (source : HttpSource) (cs : List Call) (s : Session R E) :
    (answerCalls source cs s).run files replies =
      (cs.foldl (fun s c => (s.step (.ofReply
          (HttpSource.read c.path (replies (source.url c.path c.query))) c)).lookUpAll) s,
        cs.map fun c => source.url c.path c.query) := by
  induction cs generalizing s with
  | nil => rfl
  | cons c cs ih =>
    let url := source.url c.path c.query
    exact congrArg (fun answered => (answered.1, url :: answered.2))
      (ih (s.step (.ofReply (HttpSource.read c.path (replies url)) c)).lookUpAll)

theorem run_serve_of_calls_eq_nil (source : HttpSource) {s : Session R E} (h : s.calls = []) :
    (serve source s).run files replies = (s, []) := by
  refine (Dialogue.run_bind _ _).trans ?_
  simp only [run_answerCalls, h, List.foldl_nil, List.map_nil, List.drop_nil, List.append_nil]

/-- The only call that is there is answered first, and then those that its reply leads to. -/
theorem urls_serve_of_calls_eq (source : HttpSource) {s : Session R E} {c : Call} (h : s.calls = [c]) :
    let url := source.url c.path c.query
    let answered := (s.step (.ofReply (HttpSource.read c.path (replies url)) c)).lookUpAll
    ((serve source s).run files replies).2 =
      url :: (answered.calls.drop 1).map fun c => source.url c.path c.query := by
  intro url answered
  refine (congrArg Prod.snd (Dialogue.run_bind _ _)).trans ?_
  simp only [run_answerCalls, h, List.foldl_cons, List.foldl_nil, List.map_cons, List.map_nil,
    List.length_singleton, List.cons_append, List.nil_append]
  rfl

/-! ## Showing and sending -/

/-- A request as it is shown. -/
def requestText (r : PageRequest) : String :=
  line (Json.object [("path", .string r.path), ("query", .string r.query)]).pretty

/-- One command shows what another one sends: it asks for nothing itself, it fails only as the other one
does without asking for anything, and what it prints has to do with what the other one asks for. -/
structure Foretells (files : String → Except FileError String) (replies : String → HttpReply)
    (Sends : Printed → List String → Prop) (shown sent : CommandM Printed) : Prop where
  silent : urls files replies shown = []
  refused : ∀ e, result files replies shown = .error e →
    result files replies sent = .error e ∧ urls files replies sent = []
  sends : ∀ printed, result files replies shown = .ok printed →
    Sends printed (urls files replies sent)

variable {Sends : Printed → List String → Prop}

theorem Foretells.imp {Sends' : Printed → List String → Prop} {shown sent : CommandM Printed}
    (h : Foretells files replies Sends shown sent)
    (himp : ∀ printed asked, Sends printed asked → Sends' printed asked) :
    Foretells files replies Sends' shown sent :=
  ⟨h.silent, h.refused, fun printed hprinted => himp _ _ (h.sends printed hprinted)⟩

/-- What both commands do beforehand, without asking for URLs, makes no difference. -/
theorem Foretells.bind {α : Type} {x : CommandM α} {f g : α → CommandM Printed}
    (hx : urls files replies x = [])
    (h : ∀ a, result files replies x = .ok a → Foretells files replies Sends (f a) (g a)) :
    Foretells files replies Sends (x >>= f) (x >>= g) := by
  cases ha : result files replies x with
  | error e =>
    constructor
    · rw [urls_bind, hx, ha]
      rfl
    · intro e' he'
      rw [result_bind, ha] at he' ⊢
      rw [urls_bind, hx, ha]
      exact ⟨he', rfl⟩
    · intro printed hprinted
      rw [result_bind, ha] at hprinted
      cases hprinted
  | ok a =>
    obtain ⟨hsilent, hrefused, hsends⟩ := h a ha
    constructor
    · rw [urls_bind, hx, ha]
      exact hsilent
    · intro e he
      rw [result_bind, ha] at he ⊢
      rw [urls_bind, hx, ha]
      exact hrefused e he
    · intro printed hprinted
      rw [result_bind, ha] at hprinted
      rw [urls_bind, hx, ha]
      exact hsends printed hprinted

section Page

variable {s : Session Record TokenPool} {q : PageQuery} {rows : RowKind Record}

/-- A query that makes no request is refused when its caller starts. -/
theorem fetch_of_describe_error (config : Config) (hcalls : s.calls = []) (hfinished : s.finished = [])
    {e : QueryError} (he : s.pager.describe q s.now = .error e) :
    result files replies (fetch config s q rows) = .error (.failed e.failure) ∧
      urls files replies (fetch config s q rows) = [] := by
  let started := s.step (.start (.page q rows none))
  have hstart : started = ({ s with nextCaller := s.nextCaller + 1 }).finish s.nextCaller
      (.failed e.failure) := by
    refine (Session.start_page s q rows none).trans ?_
    rw [PageFetch.start, he]
  have hserve : (serve (HttpSource.ofBase config.api.baseUrl) started).run files replies =
      (started, []) := run_serve_of_calls_eq_nil _ (by rw [hstart]; exact hcalls)
  have hended : started.finished = [(s.nextCaller, .failed e.failure)] := by
    rw [hstart]
    exact congrArg (· ++ _) hfinished
  have hperform : result files replies (perform config s (.page q rows none)) =
      .error (.failed e.failure) ∧ urls files replies (perform config s (.page q rows none)) = [] := by
    unfold perform
    rw [result_bind, urls_bind, result_liftM, urls_liftM, hserve]
    dsimp only
    rw [hended]
    exact ⟨rfl, rfl⟩
  unfold fetch
  rw [result_bind, urls_bind, hperform.1, hperform.2]
  exact ⟨rfl, rfl⟩

/-- A query that makes a request sends it first, and then looks up entities, if anything. -/
theorem urls_fetch_of_describe_ok (config : Config) (hcalls : s.calls = []) {request : PageRequest}
    (hrequest : s.pager.describe q s.now = .ok request) :
    let source := HttpSource.ofBase config.api.baseUrl
    ∃ lookups, urls files replies (fetch config s q rows) =
        source.url request.path request.query :: lookups ∧
      ∀ url ∈ lookups, ∃ directory id, s.directory? = some directory ∧
        url = source.url (directory.path id) "" := by
  intro source
  let started := s.step (.start (.page q rows none))
  let own : Call := .own s.nextCaller request.path request.query
  have hstart : started = (({ s with nextCaller := s.nextCaller + 1 }).put {
      number := s.nextCaller, job := .page ⟨request, rows⟩ (.ofToken none) }).call own :=
    Session.start_page_of_describe hrequest rows none nofun
  have hfirst : started.calls = [own] := by
    rw [hstart]
    exact congrArg (· ++ [own]) hcalls
  have hfetch : urls files replies (fetch config s q rows) =
      ((serve source started).run files replies).2 := by
    refine (urls_bind_of_silent (fun r => ?_) _).trans
      ((urls_bind_of_silent (fun s' => ?_) _).trans (urls_liftM _))
    · split <;> rfl
    · split <;> rfl
  let reply := HttpSource.read own.path (replies (source.url own.path own.query))
  let received := started.receive s.nextCaller reply
  have hserve : urls files replies (fetch config s q rows) = source.url request.path request.query ::
      (received.lookUpAll.calls.drop 1).map fun c => source.url c.path c.query :=
    hfetch.trans (urls_serve_of_calls_eq source hfirst)
  obtain ⟨calls, hcalls, hentities⟩ := received.lookUpAll_callsEntities
  rw [started.calls_receive, hfirst] at hcalls
  rw [hcalls, List.singleton_append, List.drop_one, List.tail_cons] at hserve
  refine ⟨_, hserve, fun url hurl => ?_⟩
  obtain ⟨call, hcall, rfl⟩ := List.mem_map.1 hurl
  obtain ⟨directory, id, hdirectory, rfl⟩ := hentities call hcall
  refine ⟨directory, id, ?_, rfl⟩
  have hreceived := (started.receive_untouched reply (Nat.succ_ne_self s.nextCaller)).directory
  rw [hdirectory, hstart] at hreceived
  exact hreceived.symm

theorem describe_of_ok {s : Session R E} {request : PageRequest}
    (h : s.pager.describe q s.now = .ok request) : describe s q = pure { text := requestText request } := by
  unfold describe
  rw [h]
  rfl

theorem describe_of_error {s : Session R E} {e : QueryError}
    (h : s.pager.describe q s.now = .error e) : describe s q = throw (.failed e.failure) := by
  unfold describe
  rw [h]
  rfl

/-- What is shown is what is sent first, as long as the session that sends it goes by the same settings;
what is sent after it are lookups of entities. -/
theorem showOrFetch_foretells {config : Config} {now : Instant} (s : Session Record TokenPool)
    (q : PageQuery) (rows : RowKind Record) (hcalls : s.calls = []) (hfinished : s.finished = [])
    (hpager : s.pager = config.pager) (hnow : s.now = now) :
    Foretells files replies (fun printed asked => ∃ request lookups,
        printed.text = requestText request ∧
        asked = (HttpSource.ofBase config.api.baseUrl).url request.path request.query :: lookups ∧
        ∀ url ∈ lookups, ∃ directory id, s.directory? = some directory ∧
          url = (HttpSource.ofBase config.api.baseUrl).url (directory.path id) "")
      (showOrFetch config now true s q rows) (showOrFetch config now false s q rows) := by
  let plain : Session Record Json := config.plainSession now
  have hsame : plain.pager.describe q plain.now = s.pager.describe q s.now := by
    rw [hpager, hnow]
    rfl
  change Foretells files replies _ (describe plain q) (fetch config s q rows)
  cases hrequest : s.pager.describe q s.now with
  | error e =>
    rw [describe_of_error (hsame.trans hrequest)]
    refine ⟨rfl, fun e' he' => ?_, nofun⟩
    obtain rfl := Except.error.inj he'
    exact fetch_of_describe_error config hcalls hfinished hrequest
  | ok request =>
    rw [describe_of_ok (hsame.trans hrequest)]
    refine ⟨rfl, nofun, fun printed hprinted => ?_⟩
    obtain rfl := Except.ok.inj hprinted
    obtain ⟨lookups, hasked, hlookups⟩ := urls_fetch_of_describe_ok config hcalls hrequest
    exact ⟨request, lookups, rfl, hasked, hlookups⟩

end Page

/-- The lookup of a pool is not the request for a page of any collection. -/
theorem lookup_url_ne_page_url (source : HttpSource) (config : Config) (id : String) (c : Collection)
    {r : PageRequest} (hname : r.namespaceName = config.session.namespaceName)
    (hentity : r.entityPath = c.path) :
    source.url (config.poolResolver.directory.path id) "" ≠ source.url r.path r.query := by
  have hpath : r.path = "/namespaces/" ++ config.session.namespaceName ++ "/" ++ c.path := by
    rw [PageRequest.path, hname, hentity]
  have hlookup : config.poolResolver.directory.path id =
      "/namespaces/" ++ config.session.namespaceName ++ "/" ++ "tokens/pools" ++ "/" ++ id := rfl
  intro heq
  unfold HttpSource.url at heq
  rw [if_pos rfl, hlookup, hpath] at heq
  have hchars := congrArg String.toList heq
  split at hchars
  · simp only [String.toList_append, List.append_assoc, List.append_cancel_left_eq] at hchars
    cases c <;> simp [Collection.path] at hchars
  · simp only [String.toList_append, List.append_assoc, List.append_cancel_left_eq] at hchars
    cases c <;> simp [Collection.path] at hchars

/-- The command for a page of the collection of a path, or without one for transfers with their
pools. -/
def Command.ofPaging (entity? : Option String) (paging : Paging) : Command :=
  match entity? with
  | some entity => .page entity paging
  | none => .transfers paging

/-- The request that is shown is sent first; lookups of pools come after it, if the command makes any. -/
def AsksAsShown (config : Config) (entity? : Option String) (printed : Printed) (asked : List String) :
    Prop :=
  let source := HttpSource.ofBase config.api.baseUrl
  ∃ (request : PageRequest) (lookups : List String), printed.text = requestText request ∧
    asked = source.url request.path request.query :: lookups ∧ (entity?.isSome → lookups = []) ∧
    ∀ url ∈ lookups, ∃ id, url = source.url (config.poolResolver.directory.path id) ""

theorem ofPaging_foretells (config : Config) (now : Instant) (entity? : Option String)
    (paging : Paging) :
    Foretells files replies (AsksAsShown config entity?)
      ((Command.ofPaging entity? { paging with dryRun := true }).run config now)
      ((Command.ofPaging entity? { paging with dryRun := false }).run config now) := by
  cases entity? with
  | some entity =>
    refine Foretells.bind (urls_orElse _ _) fun c _ => ?_
    refine Foretells.bind (urls_queryOf c paging config) fun q _ => ?_
    refine Foretells.imp (showOrFetch_foretells (config.plainSession now) q .untyped rfl rfl rfl rfl)
      fun printed asked hsends => ?_
    obtain ⟨request, lookups, htext, rfl, hlookups⟩ := hsends
    obtain rfl : lookups = [] := List.eq_nil_iff_forall_not_mem.2 fun url hurl =>
      have ⟨_, _, hdirectory, _⟩ := hlookups url hurl
      nomatch hdirectory
    exact ⟨request, [], htext, rfl, fun _ => rfl, nofun⟩
  | none =>
    refine Foretells.bind (urls_queryOf .tokenTransfers paging config) fun q _ => ?_
    refine Foretells.bind (urls_orFail _ _) fun s hs => ?_
    rw [result_orFail, Session.poolSession_eq] at hs
    obtain rfl := Except.ok.inj hs
    refine Foretells.imp (showOrFetch_foretells _ q .transfers rfl rfl rfl rfl)
      fun printed asked hsends => ?_
    obtain ⟨request, lookups, htext, rfl, hlookups⟩ := hsends
    refine ⟨request, lookups, htext, rfl, nofun, fun url hurl => ?_⟩
    obtain ⟨directory, id, hdirectory, rfl⟩ := hlookups url hurl
    exact ⟨id, by rw [← Option.some.inj hdirectory]⟩

/-- What the shown form of a command prints is the path and the query that the command without it asks for
first, and it asks for no other page: what follows are lookups of pools, and only for transfers. If the
shown form fails, the command fails with the same error and asks for nothing. The shown form never asks
for anything. -/
theorem dry_run_shows_what_is_sent (files : String → Except FileError String)
    (replies : String → HttpReply) (world : Surroundings) (common : Common)
    (entity? : Option String) (paging : Paging) :
    let command (dryRun : Bool) : CommandM Printed :=
      Invocation.run world { command := .ofPaging entity? { paging with dryRun }, common }
    urls files replies (command true) = [] ∧
    (∀ e, result files replies (command true) = .error e →
      result files replies (command false) = .error e ∧ urls files replies (command false) = []) ∧
    ∀ printed, result files replies (command true) = .ok printed →
      ∃ config, result files replies (loadConfig world.environment common) = .ok config ∧
        let source := HttpSource.ofBase config.api.baseUrl
        ∃ (request : PageRequest) (lookups : List String),
          printed.text = line (Json.object
            [("path", .string request.path), ("query", .string request.query)]).pretty ∧
          urls files replies (command false) = source.url request.path request.query :: lookups ∧
          (entity?.isSome → lookups = []) ∧
          (∀ url ∈ lookups, ∃ id, url = source.url (config.poolResolver.directory.path id) "") ∧
          ∀ url ∈ lookups, ∀ (c : Collection) (r : PageRequest),
            r.namespaceName = config.session.namespaceName → r.entityPath = c.path →
            url ≠ source.url r.path r.query := by
  intro command
  have hforetells : Foretells files replies (fun printed asked =>
      ∃ config, result files replies (loadConfig world.environment common) = .ok config ∧
        AsksAsShown config entity? printed asked) (command true) (command false) :=
    Foretells.bind (urls_loadConfig _ _) fun config hconfig =>
      (ofPaging_foretells config world.now entity? paging).imp fun _ _ hsends =>
        ⟨config, hconfig, hsends⟩
  refine ⟨hforetells.silent, hforetells.refused, fun printed hprinted => ?_⟩
  obtain ⟨config, hconfig, request, lookups, htext, hasked, hnone, hlookups⟩ :=
    hforetells.sends printed hprinted
  refine ⟨config, hconfig, request, lookups, htext, hasked, hnone, hlookups,
    fun url hurl c r hname hentity => ?_⟩
  obtain ⟨id, rfl⟩ := hlookups url hurl
  exact lookup_url_ne_page_url _ config id c hname hentity

def mints : Paging where
  filters := ["type:eq:mint"]
  page := 2

theorem mints_shown_and_sent :
    let files : String → Except FileError String := fun _ => .error .missing
    let replies : String → HttpReply := fun _ => .unreachable
    let command (dryRun : Bool) : CommandM Printed :=
      Invocation.run { now := ⟨1700000000, 0⟩ } ⟨.ofPaging none { mints with dryRun }, {}⟩
    ∃ (printed : Printed) (request : PageRequest) (lookups : List String),
      result files replies (command true) = .ok printed ∧
      printed.text = line (Json.object
        [("path", .string request.path), ("query", .string request.query)]).pretty ∧
      urls files replies (command true) = [] ∧
      urls files replies (command false) =
        (HttpSource.ofBase "http://localhost:5000/api/v1").url request.path request.query ::
          lookups := by
  intro files replies command
  obtain ⟨hsilent, -, hsends⟩ := dry_run_shows_what_is_sent files replies
    { now := ⟨1700000000, 0⟩ } {} none mints
  have hload : result files replies (loadConfig {} {}) = .ok {} := by decide +kernel
  have hshown : (result files replies (command true)).toOption.isSome = true := by decide +kernel
  cases hprinted : result files replies (command true) with
  | error e => simp [hprinted, Except.toOption] at hshown
  | ok printed =>
    obtain ⟨config, hconfig, request, lookups, htext, hasked, -⟩ := hsends printed hprinted
    obtain rfl := Except.ok.inj (hload.symm.trans hconfig)
    exact ⟨printed, request, lookups, rfl, htext, hsilent, hasked⟩

end CommandLine

end LedgerExplorer
