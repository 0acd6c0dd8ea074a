import PhysicalAiRuntime.Foundations.Latest
import PhysicalAiRuntime.Control.Ledger
import PhysicalAiRuntime.Recovery.ExecutionManager

/-! Several processes with Sessions over one Execution Manager, which has other clients too. Claim and
release requests are served in any order and at any time, also after their call has ended, and
status messages reach each process in order, some of them late or never. A command leaves some time
after its session found itself active, and meanwhile its session does nothing else; the label of an
`execute` already says how its calls end. -/
namespace PhysicalAiRuntime.Fleet
open Authority Provider Control
open Recovery (ExecutionManager leaseName)
set_option autoImplicit false
set_option maxHeartbeats 250000
set_option linter.unusedSectionVars false

/-- A claim request with its response, once it was served; `session` is the one that is entered,
if any, and `taken` says that its call returned. -/
structure Call (κ ι : Type) where
  process : κ
  session : Option ι
  request : ClaimRequest
  response : Option ClaimResponse
  taken : Bool

/-- A lease the manager granted, and who had asked for it. -/
structure Grant (κ ι : Type) where
  process : κ
  session : Option ι
  leaseId : String
  parts : List String
  time : ℚ

/-- A status message, with the number of leases granted before it. -/
structure Snapshot where
  status : AuthorityStatus
  grants : ℕ
  time : ℚ

/-- A command before it leaves, since its session found itself active; `basis` is the position of
the status message the process had received last then. A goal waits for its action server. -/
structure Pending (κ ι : Type) where
  process : κ
  session : ι
  part : String
  goal : Bool
  basis : Option ℕ
  checked : ℚ

/-- A command that left its process. -/
structure Command (κ ι : Type) extends Pending κ ι where
  leaseId : String
  time : ℚ

/-- The times of the system are those since its start. -/
structure System (κ ι : Type) where
  manager : ExecutionManager
  grants : List (Grant κ ι)
  published : List Snapshot
  calls : List (Call κ ι)
  releases : List String
  world : κ → World ι
  position : κ → Option ℕ
  waiting : List (Pending κ ι)
  commands : List (Command κ ι)
  now : ℚ

inductive Event (κ ι : Type) where
  /-- `__enter__` of a session sends its claim request. -/
  | request (k : κ) (i : ι)
  /-- A claim from outside the Sessions, such as that of `clear_fault`. -/
  | claim (k : κ) (request : ClaimRequest)
  /-- A release request from outside the Sessions. -/
  | release (leaseId : String)
  | serve (n : ℕ)
  /-- The claim call returns the response, and `__enter__` goes on. -/
  | answer (n : ℕ)
  | serveRelease (n : ℕ)
  | fault (resource : String)
  | publish
  | deliver (k : κ) (n : ℕ)
  | process (k : κ) (l : Label ι)
  /-- A command leaves, with the lease its client has by now. -/
  | leave (n : ℕ)
  /-- The clocks of all processes go on. -/
  | tick (elapsed : ℚ≥0)

/-- The request of `ExecutionManagerClient.claim`, as `__enter__` calls it. -/
def claimRequest (s : Session) : Except PyError ClaimRequest :=
  ExecutionManagerClient.claimRequest s.config.source.sourceRole s.config.source.sourceInstance
    s.config.resources s.config.preempt s.config.source.metadata

/-- A step that needs no message of the manager and no time. -/
def own {ι : Type} : Label ι → Bool
  | .callback (.status _) => false
  | .callback (.advance _) => false
  | .enter _ (.response _) => false
  | _ => true

variable {κ ι : Type} [DecidableEq κ] [DecidableEq ι]

/-- The commands process `k` is about to send after a step. -/
def begun (k : κ) (basis : Option ℕ) (time : ℚ) (w : World ι) : Label ι → List (Pending κ ι)
  | .act i action observation now =>
    ((w.act i action observation now).1.published.drop w.published.length).map fun _ =>
      ⟨k, i, action.part, false, basis, time⟩
  | .execute i part plan observation now answer =>
    ((w.execute i part plan observation now answer).1.dispatched.drop w.dispatched.length).map
      fun _ => ⟨k, i, part, true, basis, time⟩
  | _ => []

namespace System

def init (roleCode : SourceRole → ℕ) (now : κ → ℚ) (timeouts : κ → Timeouts)
    (config : κ → ι → SessionConfig) (sourceClient : κ → ι → ActionProviderClient) :
    System κ ι where
  manager := ExecutionManager.new roleCode
  grants := []
  published := []
  calls := []
  releases := []
  world := fun k => World.init (now k) (timeouts k) (config k) (sourceClient k)
  position := fun _ => none
  waiting := []
  commands := []
  now := 0

/-- Process `k` takes a step, which may send a release request. -/
def act (s : System κ ι) (k : κ) (l : Label ι) : System κ ι :=
  { s with
    world := Function.update s.world k ((s.world k).step l)
    releases := s.releases ++ ((s.world k).step l).released.drop (s.world k).released.length
    waiting := s.waiting ++ begun k (s.position k) s.now (s.world k) l }

def ask (s : System κ ι) (k : κ) (session : Option ι) (r : ClaimRequest) : System κ ι :=
  { s with calls := s.calls ++ [⟨k, session, r, none, false⟩] }

def request (s : System κ ι) (k : κ) (i : ι) : System κ ι :=
  if ((s.world k).session i).entered then s
  else match claimRequest ((s.world k).session i) with
    | .error _ => s
    | .ok r => s.ask k (some i) r

def serve (s : System κ ι) (n : ℕ) : System κ ι :=
  match s.calls[n]? with
  | none => s
  | some c =>
    if c.response.isSome then s
    else
      let (manager, response) := s.manager.claim c.request
      { s with
        manager := manager
        grants := s.grants ++ if response.success then
          [⟨c.process, c.session, response.leaseId, c.request.resources.map Prod.fst, s.now⟩]
          else []
        calls := s.calls.set n { c with response := some response } }

def answer (s : System κ ι) (n : ℕ) : System κ ι :=
  match s.calls[n]? with
  | none => s
  | some c =>
    match c.session, c.response with
    | some i, some r =>
      if c.taken then s
      else { s with calls := s.calls.set n { c with taken := true } }.act c.process
        (.enter i (.response r))
    | _, _ => s

def serveRelease (s : System κ ι) (n : ℕ) : System κ ι :=
  match s.releases[n]? with
  | none => s
  | some leaseId =>
    { s with manager := s.manager.release leaseId, releases := s.releases.eraseIdx n }

def publish (s : System κ ι) : System κ ι :=
  { s with published := s.published ++ [⟨s.manager.status, s.grants.length, s.now⟩] }

def deliver (s : System κ ι) (k : κ) (n : ℕ) : System κ ι :=
  match s.published[n]? with
  | none => s
  | some m =>
    if Feed.CanRead s.published (s.position k) n then
      { s with
        world := Function.update s.world k ((s.world k).callback (.status m.status))
        position := Function.update s.position k (some n) }
    else s

/-- The session that calls waits for none of its commands to leave. -/
def Free (s : System κ ι) (k : κ) (l : Label ι) : Prop :=
  ∀ p ∈ s.waiting, p.process = k → l.caller ≠ some p.session

instance (s : System κ ι) (k : κ) (l : Label ι) : Decidable (s.Free k l) :=
  inferInstanceAs (Decidable (∀ p ∈ s.waiting, p.process = k → l.caller ≠ some p.session))

/-- The lease id in the client of a session. -/
def clientLease (s : System κ ι) (p : Pending κ ι) : String :=
  ((s.world p.process).session p.session).client.leaseId

def leave (s : System κ ι) (n : ℕ) : System κ ι :=
  match s.waiting[n]? with
  | none => s
  | some p =>
    { s with
      waiting := s.waiting.eraseIdx n
      commands := s.commands ++ [⟨p, s.clientLease p, s.now⟩] }

def step (s : System κ ι) : Event κ ι → System κ ι
  | .request k i => s.request k i
  | .claim k r => s.ask k none r
  | .release leaseId => { s with releases := s.releases ++ [leaseId] }
  | .serve n => s.serve n
  | .answer n => s.answer n
  | .serveRelease n => s.serveRelease n
  | .fault resource => { s with manager := s.manager.fault resource }
  | .publish => s.publish
  | .deliver k n => s.deliver k n
  | .process k l => if own l = true ∧ s.Free k l then s.act k l else s
  | .leave n => s.leave n
  | .tick elapsed =>
    { s with
      world := fun k => (s.world k).callback (.advance elapsed)
      now := s.now + elapsed }

/-! ## The calls -/

theorem request_cases (s : System κ ι) (k : κ) (i : ι) : s.request k i = s ∨
    ∃ r, s.request k i = s.ask k (some i) r := by
  unfold request
  split
  · exact Or.inl rfl
  · split
    · exact Or.inl rfl
    · exact Or.inr ⟨_, rfl⟩

/-- A request is served once, with a refusal or with a lease. -/
theorem serve_cases (s : System κ ι) (n : ℕ) : s.serve n = s ∨
    ∃ c, s.calls[n]? = some c ∧ c.response = none ∧
      ((∃ message, s.serve n = { s with
          calls := s.calls.set n
            { c with response := some (ExecutionManager.refusal message) } }) ∨
        (s.manager.refuses c.request = none ∧ s.serve n = { s with
          manager := s.manager.granted c.request
          grants := s.grants ++ [⟨c.process, c.session, leaseName (s.manager.counter + 1),
            c.request.resources.map Prod.fst, s.now⟩]
          calls := s.calls.set n
            { c with response := some (s.manager.grantResponse c.request) } })) := by
  unfold serve
  cases hn : s.calls[n]? with
  | none => exact Or.inl rfl
  | some c =>
    cases hr : c.response with
    | some r => exact Or.inl (by simp [hr])
    | none =>
      refine Or.inr ⟨c, rfl, hr, ?_⟩
      cases hrefuses : s.manager.refuses c.request with
      | some message =>
        refine Or.inl ⟨message, ?_⟩
        simp [hr, ExecutionManager.claim, hrefuses, ExecutionManager.refusal]
      | none =>
        refine Or.inr ⟨rfl, ?_⟩
        simp [hr, ExecutionManager.claim, hrefuses, ExecutionManager.grantResponse]

/-- A response is returned once, to the entry that asked for it. -/
theorem answer_cases (s : System κ ι) (n : ℕ) : s.answer n = s ∨
    ∃ c i r, s.calls[n]? = some c ∧ c.session = some i ∧ c.response = some r ∧ c.taken = false ∧
      s.answer n = { s with calls := s.calls.set n { c with taken := true } }.act c.process
        (.enter i (.response r)) := by
  unfold answer
  cases hn : s.calls[n]? with
  | none => exact Or.inl rfl
  | some c =>
    cases hi : c.session with
    | none => exact Or.inl (by simp [hi])
    | some i =>
      cases hr : c.response with
      | none => exact Or.inl (by simp [hi, hr])
      | some r =>
        cases ht : c.taken with
        | true => exact Or.inl (by simp [hi, hr, ht])
        | false => exact Or.inr ⟨c, i, r, rfl, hi, hr, ht, by simp [hi, hr, ht]⟩

theorem process_cases (s : System κ ι) (k : κ) (l : Label ι) : s.step (.process k l) = s ∨
    (own l = true ∧ s.Free k l ∧ s.step (.process k l) = s.act k l) := by
  by_cases h : own l = true ∧ s.Free k l
  · exact Or.inr ⟨h.1, h.2, if_pos h⟩
  · exact Or.inl (if_neg h)

theorem leave_cases (s : System κ ι) (n : ℕ) : s.leave n = s ∨
    ∃ p, s.waiting[n]? = some p ∧ s.leave n = { s with
      waiting := s.waiting.eraseIdx n
      commands := s.commands ++ [⟨p, s.clientLease p, s.now⟩] } := by
  unfold leave
  cases hn : s.waiting[n]? with
  | none => exact Or.inl rfl
  | some p => exact Or.inr ⟨p, rfl, rfl⟩

end System

/-! ## What a step of a process does -/

/-- The clock and the status cache are as before. -/
structure SameCache (w w' : World ι) : Prop where
  now : w'.now = w.now
  monotonic : w'.selection.lastStatusMonotonic = w.selection.lastStatusMonotonic
  allocations : w'.selection.allocations = w.selection.allocations
  timeout : w'.selection.statusTimeoutSec = w.selection.statusTimeoutSec

theorem sameCache_sameElsewhere {w w' : World ι} {i : ι} (h : World.SameElsewhere w w' i) :
    SameCache w w' where
  now := h.now
  monotonic := congrArg ExecutionManagerClient.lastStatusMonotonic h.selection
  allocations := congrArg ExecutionManagerClient.allocations h.selection
  timeout := congrArg (fun c => c.statusTimeoutSec) h.selection

theorem sameCache_own (w : World ι) {l : Label ι} (hl : own l = true) : SameCache w (w.step l) := by
  rcases World.step_sameElsewhere w l with ⟨c, rfl⟩ | ⟨i, -, h⟩
  · cases c with
    | status m => cases hl
    | event e => exact ⟨rfl, rfl, rfl, rfl⟩
    | advance d => cases hl
  · exact sameCache_sameElsewhere h

theorem sameCache_enter (w : World ι) (i : ι) (r : ClaimResponse) :
    SameCache w (w.step (.enter i (.response r))) := by
  rcases World.step_sameElsewhere w (.enter i (.response r)) with ⟨c, hc⟩ | ⟨j, -, h⟩
  · cases hc
  · exact sameCache_sameElsewhere h

theorem leaseId_own (w : World ι) {l : Label ι} (hl : own l = true) (i : ι) :
    ((w.step l).session i).leaseId = (w.session i).leaseId := by
  rcases World.step_leases w l with ⟨c, rfl⟩ | hsame | ⟨j, r, rfl, -, -⟩
  · cases c <;> rfl
  · exact hsame.leaseId i
  · cases hl

/-- An entry that gets a response keeps all leases, or its session takes the lease. -/
theorem leaseId_enter {w : World ι} {i j : ι} {r : ClaimResponse} {leaseId : String}
    (h : ((w.step (.enter i (.response r))).session j).leaseId = some leaseId) :
    (w.session j).leaseId = some leaseId ∨ (j = i ∧ r.success = true ∧ r.leaseId = leaseId) := by
  rcases World.step_leases w (.enter i (.response r)) with ⟨c, hc⟩ | hsame | ⟨i', r', hl, hr, ht⟩
  · cases hc
  · exact Or.inl ((hsame.leaseId j).symm.trans h)
  · cases hl
    by_cases hj : j = i
    · rw [hj, ht.leaseId] at h
      exact Or.inr ⟨hj, hr, Option.some.inj h⟩
    · exact Or.inl ((ht.otherLease j hj).symm.trans h)

theorem takes_own {w : World ι} {l : Label ι} (hl : own l = true) : w.takes l = [] := by
  cases l with
  | enter i answer =>
    unfold World.takes
    cases hc : World.claimFor (w.session i) answer with
    | error e => cases (w.session i).entered <;> simp [hc]
    | ok g =>
      obtain ⟨r, rfl, -⟩ := ExecutionManagerClient.claim_ok hc
      cases hl
  | _ => rfl

/-- A session that does not part with its lease keeps it, with its configuration and its flag. -/
theorem keeps_own {w : World ι} (h : w.Inv) {l : Label ι} (hl : own l = true) {i : ι}
    (hi : ∀ x ∈ w.settles l, x.session ≠ i) : (w.session i).Keeps ((w.step l).session i) := by
  rcases World.step_ledger h l with hn | ⟨j, g, ht⟩ | ⟨j, p, w', hp⟩
  · exact hn.keeps.session i
  · have htakes := ht.takes
    rw [takes_own hl] at htakes
    cases htakes
  · have hne : i ≠ j := by
      intro he
      refine hi ⟨j, w.lease j, p⟩ ?_ he.symm
      rw [hp.settles]
      exact List.mem_singleton_self _
    obtain ⟨waiting, hstep⟩ := hp.step
    have hsame : (w.step l).session i = w'.session i := by
      rw [hstep]
      exact (World.sameElsewhere_leave w' j).session i hne
    rw [hsame]
    exact hp.keeps.session i

theorem step_enter_entered {w : World ι} {i : ι} (h : (w.session i).entered = true)
    (answer : ClaimAnswer) : w.step (.enter i answer) = w := by
  change (w.enterClaim i answer).1 = w
  rcases World.enterClaim_cases w i answer with ⟨-, e, he⟩ | ⟨g, -, hn, -⟩
  · rw [he]
  · rw [h] at hn
    cases hn

/-- An entry with a grant goes on to its wait. -/
theorem enter_granted {w : World ι} (h : w.Inv) {i : ι} {answer : ClaimAnswer} {g : LeaseGrant}
    (hn : (w.session i).entered = false) (hg : World.claimFor (w.session i) answer = .ok g) :
    ((w.step (.enter i answer)).session i).config = (w.session i).config ∧
    ((w.step (.enter i answer)).session i).entered = true ∧
    ((w.step (.enter i answer)).session i).leaseId = some g.leaseId := by
  change ((w.enterClaim i answer).1.session i).config = _ ∧
    ((w.enterClaim i answer).1.session i).entered = _ ∧
    ((w.enterClaim i answer).1.session i).leaseId = _
  rcases World.enterClaim_cases w i answer with ⟨hno, -⟩ | ⟨g', hg', -, ⟨hne, -⟩ | ⟨-, hc⟩⟩
  · rcases hno with he | ⟨e, he⟩
    · rw [hn] at he
      cases he
    · rw [hg] at he
      cases he
  · exact absurd ((h i).unbound hn).leaseId hne
  · rw [hg] at hg'
    cases hg'
    rw [hc]
    simp [World.beginWait, World.pushControl, World.recordGrant]

theorem session_untouched (w : World ι) {l : Label ι} {i : ι} (h : l.caller ≠ some i) :
    (w.step l).session i = w.session i := by
  rcases World.step_sameElsewhere w l with ⟨c, rfl⟩ | ⟨j, hj, hs⟩
  · cases c <;> rfl
  · have hne : i ≠ j := fun he => h (he ▸ hj)
    exact hs.session i hne

/-- A session that is about to send a command: it is active for the part. -/
structure Sends (w : World ι) (l : Label ι) (p : Pending κ ι) : Prop where
  caller : l.caller = some p.session
  client : (w.session p.session).client.leaseId ≠ ""
  active : w.activeFor p.session p.part = true
  keeps : (w.session p.session).Keeps ((w.step l).session p.session)

/-- A step begins no command, or one. -/
theorem begun_cases (k : κ) (basis : Option ℕ) (time : ℚ) (w : World ι) (l : Label ι) :
    begun k basis time w l = [] ∨ ∃ p, begun k basis time w l = [p] ∧ p.process = k ∧
      p.basis = basis ∧ p.checked = time ∧ Sends w l p := by
  cases l with
  | act i action observation now =>
    have hkeeps := (World.act_keeps w i action observation now).session i
    simp only [begun]
    rcases World.act_cases w i action observation now with
      ha | ⟨d, ha⟩ | ⟨client, q, hsend, hactive, -, ha⟩
    · rw [ha]
      exact Or.inl (by simp)
    · rw [ha]
      exact Or.inl (by simp [World.setSession])
    · obtain ⟨hne, -⟩ := ActionProviderClient.send_ok (agentSend_ok hsend)
      refine Or.inr ⟨⟨k, i, action.part, false, basis, time⟩, ?_, rfl, rfl, rfl, rfl, hne,
        hactive, hkeeps⟩
      rw [ha]
      change List.map _ ((w.published ++ [q]).drop w.published.length) = _
      rw [List.drop_left]
      rfl
  | execute i part plan observation now answer =>
    have hkeeps := (World.execute_keeps w i part plan observation now answer).session i
    simp only [begun]
    rcases World.execute_cases w i part plan observation now answer with
      hx | ⟨d, goals, hactive, -, -⟩
    · rw [hx]
      exact Or.inl (by simp)
    · rcases World.execute_dispatched w i part plan observation now answer with hd | hd
      · rw [hd]
        exact Or.inl (by simp)
      · rw [hd, List.drop_left]
        cases hg : ((w.session i).config.source.execute part plan (w.session i).client now
            answer).2.1 with
        | none => exact Or.inl rfl
        | some g =>
          exact Or.inr ⟨⟨k, i, part, true, basis, time⟩, rfl, rfl, rfl, rfl, rfl,
            (World.agentExecute_goal hg).2, hactive, hkeeps⟩
  | callback c => exact Or.inl rfl
  | enter i answer => exact Or.inl rfl
  | poll i answer => exact Or.inl rfl
  | exit i bodyRaised answer => exact Or.inl rfl
  | waitPlan i part answer => exact Or.inl rfl
  | cancelPlan i part answer => exact Or.inl rfl

/-- The session of a command is entered, and its client has its lease before and after the step. -/
theorem Sends.lease {w : World ι} (h : w.Inv) {l : Label ι} {p : Pending κ ι} (hp : Sends w l p) :
    (w.session p.session).leaseId = some (w.session p.session).client.leaseId ∧
      ((w.step l).session p.session).entered = true ∧
      ((w.step l).session p.session).client.leaseId = (w.session p.session).client.leaseId := by
  refine ⟨World.client_lease h hp.client, ?_, ?_⟩
  · rw [hp.keeps.entered]
    exact (World.activeFor_true hp.active).2.1
  · rcases (h p.session).client with hu | ⟨-, g, -, hg⟩
    · exact absurd hu.leaseId hp.client
    · rw [(hp.keeps.boundTo g hg).leaseId, hg.leaseId]

/-- Every message and every goal of a step is one of its commands. -/
theorem begun_length (k : κ) (basis : Option ℕ) (time : ℚ) (w : World ι) (l : Label ι) :
    (w.step l).published.length + (w.step l).dispatched.length =
      w.published.length + w.dispatched.length + (begun k basis time w l).length := by
  have hsame : World.SameCommands w (w.step l) → begun k basis time w l = [] →
      (w.step l).published.length + (w.step l).dispatched.length =
        w.published.length + w.dispatched.length + (begun k basis time w l).length := by
    intro hs hnil
    rw [hs.published, hs.dispatched, hnil]
    rfl
  cases l with
  | callback c => exact hsame (World.sameCommands_callback w c) rfl
  | enter i answer => exact hsame (World.sameCommands_enterClaim w i answer) rfl
  | poll i answer =>
    refine hsame ?_ rfl
    change World.SameCommands w (w.poll i answer)
    unfold World.poll
    cases w.waiting i with
    | none => exact World.SameCommands.refl w
    | some deadline => exact World.sameCommands_enterPoll w i deadline answer
  | exit i bodyRaised answer => exact hsame (World.sameCommands_exit w i bodyRaised answer) rfl
  | act i action observation now =>
    simp only [begun, World.step, List.length_map, List.length_drop]
    rcases World.act_cases w i action observation now with
      ha | ⟨d, ha⟩ | ⟨client, p, -, -, -, ha⟩
    · rw [ha]
      omega
    · simp only [ha, World.setSession]
      omega
    · simp only [ha, World.publish, World.setSession, List.length_append, List.length_singleton]
      omega
  | execute i part plan observation now answer =>
    have hpublished := World.execute_published w i part plan observation now answer
    simp only [begun, World.step, List.length_map, List.length_drop, hpublished]
    rcases World.execute_dispatched w i part plan observation now answer with hd | hd
    · rw [hd]
      omega
    · rw [hd, List.length_append]
      omega
  | waitPlan i part answer => exact hsame ⟨rfl, rfl⟩ rfl
  | cancelPlan i part answer => exact hsame ⟨rfl, rfl⟩ rfl

end PhysicalAiRuntime.Fleet
