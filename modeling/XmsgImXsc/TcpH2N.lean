/-
# XmsgImXsc.TcpH2N -- the threads that keep an H2N channel connected

`XmsgImTcpH2N::connect()` may be called by any thread.  It starts a detached thread `svc`,
which connects the socket and queues the closure that establishes the channel.  The worker
executes queued closures in order.  `H2nRun` is one channel with the threads that work on
it, and a step is one access of a thread to the shared fields.

A connection is coming up while a thread `svc` has not queued its closure or the closure is
queued, and it is up while `est` is set.  The invariant `H2nRun.Single` counts these: as
long as `trying` is won only on a channel without a connection, there is at most one.
-/
import XmsgImXsc.Lib.Lts

namespace XmsgImXsc

open Lts

/-! ## The channel and its threads -/

/-- The closures `svc` queues on the worker. -/
inductive H2nClosure where
  /-- Append the channel to the worker's `h2ns`. -/
  | register
  /-- Set `est` and `cfd`, and call `estab()`. -/
  | establish (cfd : Int)
  deriving Repr, DecidableEq

/-- The closure establishes a connection. -/
def H2nClosure.isEstablish : H2nClosure → Bool
  | .register => false
  | .establish _ => true

/-- Where a thread `svc` is. -/
inductive SvcPc where
  /-- `if (!h2n->needWait)`, before the loop. -/
  | regTest
  /-- Queue the closure that registers the channel. -/
  | register
  /-- `if (h2n->needWait)`, in the loop. -/
  | waitTest
  | sleep
  /-- `h2n->needWait = true`. -/
  | setWait
  /-- `Net::tcpConnect`; `slept` tells whether the reconnect delay came before it. -/
  | tcpConnect (slept : Bool)
  /-- Queue the closure that establishes the channel. -/
  | enqueue (cfd : Int)
  /-- `this->trying.exchange(false)`. -/
  | release
  deriving Repr, DecidableEq

/-- The thread has not queued its establish closure yet. -/
def SvcPc.connecting : SvcPc → Bool
  | .release => false
  | _ => true

/-- The fields of `XmsgImTcpH2N` that `connect` and `svc` share. -/
structure XmsgImTcpH2N where
  est : Bool := false
  cfd : Int := 0
  trying : Bool := false
  needWait : Bool := false
  deriving Repr, DecidableEq

/-- A channel in its process. -/
structure H2nRun extends XmsgImTcpH2N where
  /-- The closures queued on the worker, the next one first. -/
  queue : List H2nClosure := []
  /-- How often the channel stands in the worker's `h2ns`. -/
  h2ns : Nat := 0
  /-- How many calls of `connect()` have found `est` false and not exchanged `trying` yet. -/
  callers : Nat := 0
  svcs : List SvcPc := []
  /-- Every closure queued so far, newest first. -/
  queued : List H2nClosure := []
  /-- For every connection attempt whether the delay came before it, newest first. -/
  attempts : List Bool := []
  /-- The connections that were up when another one replaced them, with that one. -/
  replaced : List (Int × Int) := []
  deriving Repr, DecidableEq

namespace H2nRun

section Threads

variable (s : H2nRun)

/-- `if (this->est)` in `connect()`. -/
def connectTest : H2nRun := if s.est then s else { s with callers := s.callers + 1 }

/-- `if (this->trying.exchange(true))` in `connect()`; the caller that finds false starts a
thread. -/
def exchange : H2nRun :=
  let s := { s with callers := s.callers - 1 }
  if s.trying then s else { s with trying := true, svcs := .regTest :: s.svcs }

/-- `h2n->future(closure)`. -/
def future (closure : H2nClosure) : H2nRun :=
  { s with queue := s.queue ++ [closure], queued := closure :: s.queued }

/-- One step of a thread `svc`, and where it is afterwards.  `cfd` is what `Net::tcpConnect`
returns in this step. -/
def svc (cfd : Int) : SvcPc → H2nRun × Option SvcPc
  | .regTest => (s, some (if !s.needWait then .register else .waitTest))
  | .register => (s.future .register, some .waitTest)
  | .waitTest => (s, some (if s.needWait then .sleep else .setWait))
  | .sleep => (s, some (.tcpConnect true))
  | .setWait => ({ s with needWait := true }, some (.tcpConnect false))
  | .tcpConnect slept =>
      ({ s with attempts := slept :: s.attempts },
        some (if cfd < 1 then .waitTest else .enqueue cfd))
  | .enqueue cfd => (s.future (.establish cfd), some .release)
  | .release => ({ s with trying := false }, none)

/-- A closure runs on the worker. -/
def runClosure : H2nClosure → H2nRun
  | .register => { s with h2ns := s.h2ns + 1 }
  | .establish cfd =>
      { s with
        est := true
        cfd := cfd
        replaced := if s.est then (s.cfd, cfd) :: s.replaced else s.replaced }

/-- The channel is lost. -/
def lose : H2nRun := { s with est := false }

end Threads

/-- One step of a caller of `connect`, of a thread `svc` or of the worker, or the loss of the
connection. -/
inductive Act where
  | connectTest
  | exchange
  | svc (cfd : Int)
  | run
  | lose
  deriving Repr, DecidableEq

/-- The steps, in any order the threads and the worker come to them. -/
inductive Step : H2nRun → Act → H2nRun → Prop
  | connectTest (s) : Step s .connectTest s.connectTest
  | exchange (s) : 0 < s.callers → Step s .exchange s.exchange
  | svc (s) {l₁ l₂ : List SvcPc} {pc} (cfd) : s.svcs = l₁ ++ pc :: l₂ →
      Step s (.svc cfd)
        { (s.svc cfd pc).1 with svcs := l₁ ++ ((s.svc cfd pc).2.toList ++ l₂) }
  | run (s) {closure q} : s.queue = closure :: q →
      Step s .run ({ s with queue := q }.runClosure closure)
  | lose (s) : Step s .lose s.lose

end H2nRun

open H2nRun

/-- The runs of a channel from given states. -/
def h2nFrom (init : H2nRun → Prop) : System H2nRun Act where
  init := init
  step := Step

/-- The runs of a channel as constructed. -/
def h2nSystem : System H2nRun Act := h2nFrom (· = {})

/-! ## At most one connection -/

namespace H2nRun

/-- The establish closures that are queued. -/
def establishes (s : H2nRun) : Nat := s.queue.countP H2nClosure.isEstablish

/-- The threads that still have to queue their establish closure. -/
def connecting (s : H2nRun) : Nat := s.svcs.countP SvcPc.connecting

variable {s s' : H2nRun} {a : Act}

@[simp] theorem svc_est (s : H2nRun) (cfd : Int) (pc : SvcPc) :
    (s.svc cfd pc).1.est = s.est := by
  cases pc <;> rfl

@[simp] theorem svc_replaced (s : H2nRun) (cfd : Int) (pc : SvcPc) :
    (s.svc cfd pc).1.replaced = s.replaced := by
  cases pc <;> rfl

/-- A step of a thread keeps `trying` and the thread goes on, or it is the last one. -/
theorem svc_trying (s : H2nRun) (cfd : Int) (pc : SvcPc) :
    ((s.svc cfd pc).1.trying = s.trying ∧ (s.svc cfd pc).2.toList.length = 1) ∨
      (s.svc cfd pc).2 = none := by
  cases pc with
  | release => exact .inr rfl
  | _ => exact .inl ⟨rfl, rfl⟩

/-- A connection that is coming up moves from the thread into the queue, and nothing else
brings one up. -/
theorem svc_connecting (s : H2nRun) (cfd : Int) (pc : SvcPc) :
    (s.svc cfd pc).2.toList.countP SvcPc.connecting + (s.svc cfd pc).1.establishes =
      [pc].countP SvcPc.connecting + s.establishes := by
  have hfuture (closure : H2nClosure) :
      (s.future closure).establishes = s.establishes + [closure].countP (·.isEstablish) :=
    List.countP_append
  cases pc with
  | regTest =>
      show [if !s.needWait then SvcPc.register else .waitTest].countP _ + _ = _
      cases s.needWait <;> rfl
  | register =>
      show _ + (s.future .register).establishes = _
      rw [hfuture]
      rfl
  | waitTest =>
      show [if s.needWait then SvcPc.sleep else .setWait].countP _ + _ = _
      cases s.needWait <;> rfl
  | sleep => rfl
  | setWait => rfl
  | tcpConnect slept =>
      show [if cfd < 1 then SvcPc.waitTest else .enqueue cfd].countP _ + _ = _
      split <;> rfl
  | enqueue cfd' =>
      show 0 + (s.future (.establish cfd')).establishes = 1 + _
      rw [hfuture, Nat.zero_add, Nat.add_comm]
      rfl
  | release => rfl

/-- A caller that finds an attempt under way returns, -/
theorem exchange_busy (h : s.trying = true) :
    s.exchange = { s with callers := s.callers - 1 } :=
  if_pos h

/-- and one that does not starts one. -/
theorem exchange_free (h : s.trying = false) :
    s.exchange =
      { s with callers := s.callers - 1, trying := true, svcs := .regTest :: s.svcs } :=
  if_neg (by rw [h]; exact Bool.false_ne_true)

@[simp] theorem runClosure_svcs (s : H2nRun) (closure : H2nClosure) :
    (s.runClosure closure).svcs = s.svcs := by
  cases closure <;> rfl

@[simp] theorem runClosure_trying (s : H2nRun) (closure : H2nClosure) :
    (s.runClosure closure).trying = s.trying := by
  cases closure <;> rfl

/-- Only a connection that is up is replaced. -/
theorem runClosure_replaced (hest : s.est = false) (closure : H2nClosure) :
    (s.runClosure closure).replaced = s.replaced := by
  cases closure with
  | register => rfl
  | establish cfd => exact if_neg (by rw [hest]; exact Bool.false_ne_true)

/-- At most one thread `svc` is active, and `trying` is set while it is. -/
theorem Step.exclusive (hstep : Step s a s') (h : s.svcs.length ≤ s.trying.toNat) :
    s'.svcs.length ≤ s'.trying.toNat := by
  cases hstep with
  | connectTest =>
      unfold H2nRun.connectTest
      split <;> exact h
  | exchange _ =>
      cases htrying : s.trying with
      | true =>
          rw [exchange_busy htrying]
          exact h
      | false =>
          -- the flag was free, so no thread was active
          rw [htrying] at h
          rw [exchange_free htrying]
          show s.svcs.length + 1 ≤ 1
          exact Nat.succ_le_succ h
  | @svc l₁ l₂ pc cfd hsvcs =>
      have hle := s.trying.toNat_le
      rw [hsvcs] at h
      simp only [List.length_append, List.length_cons] at h
      show (l₁ ++ ((s.svc cfd pc).2.toList ++ l₂)).length ≤ (s.svc cfd pc).1.trying.toNat
      simp only [List.length_append]
      rcases svc_trying s cfd pc with ⟨hkeep, hone⟩ | hnone
      · rw [hkeep, hone]
        omega
      · rw [hnone]
        simp only [Option.toList_none, List.length_nil]
        omega
  | run hqueue => simpa using h
  | lose => exact h

/-- At most one connection is up or coming up, and none that was up has been replaced. -/
structure Single (s : H2nRun) : Prop where
  single : s.connecting + s.establishes + s.est.toNat ≤ 1
  kept : s.replaced = []

/-- A call of `connect()` wins `trying` only while the channel is down and no establish
closure is queued. -/
def WinsDown (s : H2nRun) : Act → Prop
  | .exchange => s.trying = false → s.est = false ∧ s.establishes = 0
  | _ => True

/-- A win on a channel that is down keeps one connection at most. -/
theorem Step.single (hstep : Step s a s') (hguard : s.WinsDown a)
    (hexcl : s.svcs.length ≤ s.trying.toNat) (h : s.Single) : s'.Single := by
  cases hstep with
  | connectTest =>
      unfold H2nRun.connectTest
      split
      · exact h
      · exact ⟨h.single, h.kept⟩
  | exchange _ =>
      cases htrying : s.trying with
      | true =>
          rw [exchange_busy htrying]
          exact ⟨h.single, h.kept⟩
      | false =>
          obtain ⟨hest, hnone⟩ := hguard htrying
          have hsvcs : s.svcs = [] := by
            rw [htrying] at hexcl
            exact List.length_eq_zero_iff.mp (Nat.le_zero.mp hexcl)
          rw [exchange_free htrying]
          refine ⟨?_, h.kept⟩
          show (SvcPc.regTest :: s.svcs).countP SvcPc.connecting + s.establishes +
            s.est.toNat ≤ 1
          rw [hsvcs, hnone, hest]
          decide
  | @svc l₁ l₂ pc cfd hsvcs =>
      refine ⟨?_, ?_⟩
      · have hsingle := h.single
        have hmove := svc_connecting s cfd pc
        unfold connecting at hsingle
        rw [hsvcs, List.countP_append, ← List.singleton_append, List.countP_append] at hsingle
        show (l₁ ++ ((s.svc cfd pc).2.toList ++ l₂)).countP SvcPc.connecting +
          (s.svc cfd pc).1.establishes + (s.svc cfd pc).1.est.toNat ≤ 1
        rw [List.countP_append, List.countP_append, svc_est]
        omega
      · show (s.svc cfd pc).1.replaced = []
        rw [svc_replaced]
        exact h.kept
  | @run closure q hqueue =>
      have hsingle := h.single
      unfold establishes at hsingle
      rw [hqueue, ← List.singleton_append, List.countP_append] at hsingle
      cases closure with
      | register =>
          have hzero : [H2nClosure.register].countP H2nClosure.isEstablish = 0 := rfl
          refine ⟨?_, h.kept⟩
          show s.connecting + q.countP H2nClosure.isEstablish + s.est.toNat ≤ 1
          omega
      | establish cfd =>
          have hone : [H2nClosure.establish cfd].countP H2nClosure.isEstablish = 1 := rfl
          -- the queued connection is the only one, so the channel is down
          have hest : s.est = false := by
            cases hest : s.est with
            | false => rfl
            | true =>
                rw [hest, hone] at hsingle
                simp only [Bool.toNat_true] at hsingle
                omega
          refine ⟨?_, ?_⟩
          · show s.connecting + q.countP H2nClosure.isEstablish + 1 ≤ 1
            omega
          · rw [runClosure_replaced (s := { s with queue := q }) hest]
            exact h.kept
  | lose =>
      have hsingle := h.single
      refine ⟨?_, h.kept⟩
      show s.connecting + s.establishes + 0 ≤ 1
      omega

end H2nRun

/-- The invariant of the runs that meet the condition. -/
theorem reachable_single {s : H2nRun} (h : Reachable h2nSystem WinsDown s) :
    s.svcs.length ≤ s.trying.toNat ∧ s.Single := by
  apply h.invariant (I := fun s => s.svcs.length ≤ s.trying.toNat ∧ s.Single)
  · rintro s rfl
    exact ⟨by decide, by decide, rfl⟩
  · rintro s a s' ⟨hexcl, hsingle⟩ hguard hstep
    exact ⟨hstep.exclusive hexcl, hstep.single hguard hexcl hsingle⟩

/-! ## What happens where the condition fails -/

namespace H2nRun

section Attempt

variable {init : H2nRun → Prop} {G : H2nRun → Act → Prop} {s : H2nRun}

/-- The newest thread takes a step and goes on. -/
theorem reachable_svc (hG : ∀ s cfd, G s (.svc cfd)) {pc pc' : SvcPc} {l : List SvcPc}
    (h : Reachable (h2nFrom init) G { s with svcs := pc :: l }) {cfd : Int} {s' : H2nRun}
    (hstep : s.svc cfd pc = (s', some pc')) :
    Reachable (h2nFrom init) G { s' with svcs := pc' :: l } := by
  have hnext := h.step (hG _ cfd) (@Step.svc _ [] l pc cfd rfl)
  have heq : { ({ s with svcs := pc :: l }.svc cfd pc).1 with
      svcs := [] ++ (({ s with svcs := pc :: l }.svc cfd pc).2.toList ++ l) } =
      { (s.svc cfd pc).1 with svcs := (s.svc cfd pc).2.toList ++ l } := by
    cases pc <;> rfl
  rw [heq, hstep] at hnext
  exact hnext

/-- What `svc` queues before its loop. -/
def registered (s : H2nRun) : H2nRun := if s.needWait then s else s.future .register

/-- The thread gets to its loop. -/
theorem reachable_registered (hG : ∀ s cfd, G s (.svc cfd)) {l : List SvcPc}
    (h : Reachable (h2nFrom init) G { s with svcs := .regTest :: l }) :
    Reachable (h2nFrom init) G { s.registered with svcs := .waitTest :: l } := by
  unfold registered
  cases hwait : s.needWait with
  | true =>
      have htest : s.svc 0 .regTest = (s, some .waitTest) := by simp [H2nRun.svc, hwait]
      exact reachable_svc hG h htest
  | false =>
      have htest : s.svc 0 .regTest = (s, some .register) := by simp [H2nRun.svc, hwait]
      have hqueue : s.svc 0 .register = (s.future .register, some .waitTest) := rfl
      exact reachable_svc hG (reachable_svc hG h htest) hqueue

/-- The thread gets to its connection attempt, after the delay unless it is the first. -/
theorem reachable_waited (hG : ∀ s cfd, G s (.svc cfd)) {l : List SvcPc}
    (h : Reachable (h2nFrom init) G { s with svcs := .waitTest :: l }) :
    Reachable (h2nFrom init) G
      { s with needWait := true, svcs := .tcpConnect s.needWait :: l } := by
  cases hwait : s.needWait with
  | true =>
      have htest : s.svc 0 .waitTest = (s, some .sleep) := by simp [H2nRun.svc, hwait]
      have hsleep : s.svc 0 .sleep = (s, some (.tcpConnect true)) := rfl
      have hconnect := reachable_svc hG (reachable_svc hG h htest) hsleep
      rw [← hwait] at hconnect ⊢
      exact hconnect
  | false =>
      have htest : s.svc 0 .waitTest = (s, some .setWait) := by simp [H2nRun.svc, hwait]
      have hset : s.svc 0 .setWait = ({ s with needWait := true }, some (.tcpConnect false)) := rfl
      exact reachable_svc hG (reachable_svc hG h htest) hset

/-- A connection attempt succeeds and the thread ends. -/
theorem reachable_connected (hG : ∀ s cfd, G s (.svc cfd)) {slept : Bool} {l : List SvcPc}
    (h : Reachable (h2nFrom init) G { s with svcs := .tcpConnect slept :: l }) (cfd : Int)
    (hcfd : ¬ cfd < 1) :
    Reachable (h2nFrom init) G
      { s.future (.establish cfd) with
        trying := false, attempts := slept :: s.attempts, svcs := l } := by
  let s₁ : H2nRun := { s with attempts := slept :: s.attempts }
  have hconnect : s.svc cfd (.tcpConnect slept) = (s₁, some (.enqueue cfd)) := by
    simp only [H2nRun.svc, if_neg hcfd, s₁]
  have hqueue : s₁.svc cfd (.enqueue cfd) = (s₁.future (.establish cfd), some .release) := rfl
  have hrelease := reachable_svc hG (reachable_svc hG h hconnect) hqueue
  have hend := hrelease.step (hG _ cfd) (@Step.svc _ [] l .release cfd rfl)
  exact hend

/-- A call of `connect()` wins `trying`, and its thread connects at the first attempt and
ends. -/
def attempt (s : H2nRun) (cfd : Int) : H2nRun :=
  { s.registered.future (.establish cfd) with
    callers := s.callers - 1
    trying := false
    needWait := true
    attempts := s.needWait :: s.attempts }

@[simp] theorem attempt_est (s : H2nRun) (cfd : Int) : (s.attempt cfd).est = s.est := by
  unfold attempt registered
  cases s.needWait <;> rfl

@[simp] theorem attempt_replaced (s : H2nRun) (cfd : Int) :
    (s.attempt cfd).replaced = s.replaced := by
  unfold attempt registered
  cases s.needWait <;> rfl

/-- The attempt queues one more connection. -/
theorem attempt_establishes (s : H2nRun) (cfd : Int) :
    (s.attempt cfd).establishes = s.establishes + 1 := by
  unfold attempt registered
  cases s.needWait with
  | true => exact List.countP_append
  | false =>
      show ((s.queue ++ [H2nClosure.register]) ++ [H2nClosure.establish cfd]).countP _ =
        s.queue.countP _ + 1
      rw [List.countP_append, List.countP_append]
      rfl

theorem reachable_attempt (hG : ∀ s cfd, G s (.svc cfd)) (h : Reachable (h2nFrom init) G s)
    (hcallers : 0 < s.callers) (htrying : s.trying = false) (hguard : G s .exchange) (cfd : Int)
    (hcfd : ¬ cfd < 1) : Reachable (h2nFrom init) G (s.attempt cfd) := by
  have hwon := h.step hguard (.exchange s hcallers)
  rw [exchange_free htrying] at hwon
  let s₁ : H2nRun := { s with callers := s.callers - 1, trying := true }
  have hloop := reachable_registered (s := s₁) hG hwon
  have hwaited := reachable_waited (s := s₁.registered) hG hloop
  have hdone := reachable_connected (s := { s₁.registered with needWait := true }) hG hwaited cfd
    hcfd
  have heq : s.attempt cfd =
      { H2nRun.future { s₁.registered with needWait := true } (.establish cfd) with
        trying := false
        attempts := s₁.registered.needWait :: s₁.registered.attempts
        svcs := s.svcs } := by
    unfold attempt registered
    dsimp only [s₁]
    cases s.needWait <;> rfl
  rw [heq]
  exact hdone

/-- The worker executes its closures.  When the channel is up and a connection is queued, or
two are queued, one of them replaces a connection that is up. -/
theorem reachable_replaced (hG : ∀ s, G s .run) (h : Reachable (h2nFrom init) G s)
    (htwo : 2 ≤ s.establishes + s.est.toNat) :
    ∃ s', Reachable (h2nFrom init) G s' ∧ s.replaced.length < s'.replaced.length := by
  generalize hq : s.queue = q
  induction q generalizing s with
  | nil =>
      have hle := s.est.toNat_le
      unfold establishes at htwo
      rw [hq] at htwo
      simp only [List.countP_nil] at htwo
      omega
  | cons closure q ih =>
      have hrun := h.step (hG s) (.run s hq)
      unfold establishes at htwo
      rw [hq, ← List.singleton_append, List.countP_append] at htwo
      cases closure with
      | register =>
          have hzero : [H2nClosure.register].countP H2nClosure.isEstablish = 0 := rfl
          have hmore : 2 ≤ q.countP H2nClosure.isEstablish + s.est.toNat := by omega
          obtain ⟨s', hs', hlt⟩ := ih hrun hmore rfl
          exact ⟨s', hs', hlt⟩
      | establish cfd =>
          have hone : [H2nClosure.establish cfd].countP H2nClosure.isEstablish = 1 := rfl
          cases hest : s.est with
          | true =>
              refine ⟨_, hrun, ?_⟩
              simp [runClosure, hest]
          | false =>
              -- the first one brings the channel up
              have hmore : 2 ≤ q.countP H2nClosure.isEstablish + 1 := by
                rw [hest] at htwo
                simp only [Bool.toNat_false] at htwo
                omega
              obtain ⟨s', hs', hlt⟩ := ih hrun hmore rfl
              rw [runClosure_replaced (s := { s with queue := q }) hest] at hlt
              exact ⟨s', hs', hlt⟩

end Attempt

end H2nRun

/-- In every run in which `trying` is won only while the channel is down and no establish
closure is queued, no establish closure runs on a channel that is up.  And from every state
in which a call of `connect()` is about to win `trying` otherwise, there is a run in which
the closure of its thread, or one queued before, replaces a connection that is up. -/
theorem live_connection_never_replaced (s : H2nRun) :
    (Reachable h2nSystem WinsDown s → s.replaced = []) ∧
      (0 < s.callers → ¬ s.WinsDown .exchange →
        ∃ s', Reachable (h2nFrom (· = s)) Always s' ∧
          s.replaced.length < s'.replaced.length) := by
  refine ⟨fun h => (reachable_single h).2.kept, ?_⟩
  intro hcallers hnot
  obtain ⟨htrying, hlive⟩ := Classical.not_imp.mp hnot
  have hattempt := reachable_attempt (fun _ _ => trivial)
    (.init rfl : Reachable (h2nFrom (· = s)) Always s) hcallers htrying trivial 1 (by decide)
  have htwo : 2 ≤ (s.attempt 1).establishes + (s.attempt 1).est.toNat := by
    rw [attempt_establishes, attempt_est]
    cases hest : s.est with
    | true =>
        show 2 ≤ s.establishes + 1 + 1
        omega
    | false =>
        have hqueued : s.establishes ≠ 0 := fun hzero => hlive ⟨hest, hzero⟩
        show 2 ≤ s.establishes + 1 + 0
        omega
  obtain ⟨s', hs', hlt⟩ := reachable_replaced (fun _ => trivial) hattempt htwo
  rw [attempt_replaced] at hlt
  exact ⟨s', hs', hlt⟩

/-- A connection is queued, and a second call of `connect()` has found `est` false. -/
def H2nRun.reconnecting : H2nRun := (({} : H2nRun).connectTest.attempt 5).connectTest

theorem H2nRun.reconnecting_reachable : Reachable h2nSystem WinsDown reconnecting := by
  have hfirst : Reachable h2nSystem WinsDown ({} : H2nRun).connectTest :=
    .step (a := .connectTest) (.init rfl) trivial (.connectTest _)
  have hqueued := reachable_attempt (fun _ _ => trivial) hfirst (by decide) rfl
    (fun _ => by decide) 5 (by decide)
  exact .step (a := .connectTest) hqueued trivial (.connectTest _)

theorem live_connection_never_replaced_reconnecting :
    reconnecting.replaced = [] ∧
      ∃ s', Reachable (h2nFrom (· = reconnecting)) Always s' ∧ 0 < s'.replaced.length := by
  obtain ⟨hkept, hreplace⟩ := live_connection_never_replaced reconnecting
  refine ⟨hkept reconnecting_reachable, hreplace (by decide) ?_⟩
  intro h
  exact absurd (h rfl) (by decide)

/-- The second call wins `trying` before the worker has executed the first establish closure:
the connection 5 is up when the connection 6 replaces it. -/
theorem live_connection_replaced_sample :
    ∃ s, Reachable h2nSystem Always s ∧ s.est = true ∧ s.cfd = 6 ∧ s.replaced = [(5, 6)] := by
  have hsecond := reachable_attempt (fun _ _ => trivial)
    (reconnecting_reachable.mono fun _ _ _ => trivial) (by decide) rfl trivial 6 (by decide)
  -- the worker executes the registration and both establish closures
  have h1 := hsecond.step trivial (.run _ rfl)
  have h2 := h1.step trivial (.run _ rfl)
  have h3 := h2.step trivial (.run _ rfl)
  exact ⟨_, h3, rfl, rfl, rfl⟩

end XmsgImXsc
