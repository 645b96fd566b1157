/-
# XmsgImXsc.Heartbeat -- the sweeps and the heartbeats of an H2N channel

The worker calls `dida` for the channels in its `h2ns`.  On an established channel it sweeps the
table and sends a ping to the server, each unless the last was too short a time ago.  The stamps
of both belong to the channel object and outlive its connections: when a connection is lost and
the threads of `connect()` bring up another, nothing resets them.

`H2nAlive` is one channel object with these threads, its table and the clock.  Its two stamps
are throttles, which bounds the sweeps and the pings of a whole life of the object.
-/
import XmsgImXsc.Lib.Throttle
import XmsgImXsc.TcpH2N
import XmsgImXsc.Timeout

namespace XmsgImXsc

open Lts Throttles

variable {M : Type}

/-! ## The channel object -/

/-- `cfg->heartbeat * DateMisc::sec`; `hb` is `cfg->heartbeat`. -/
def hbPeriod (cfg : XscCfg) (hb : UInt32) : UInt64 := hb.toUInt64 * cfg.sec

/-- `now < this->lastHbTs + cfg->heartbeat * DateMisc::sec`: no ping is sent. -/
def HbHeld (cfg : XscCfg) (hb : UInt32) (lastHbTs now : UInt64) : Prop :=
  now < lastHbTs + hbPeriod cfg hb

instance (cfg : XscCfg) (hb : UInt32) (lastHbTs now : UInt64) :
    Decidable (HbHeld cfg hb lastHbTs now) :=
  inferInstanceAs (Decidable (_ < _))

/-- `heartbeat` on `lastHbTs`, and whether it sends the ping. -/
def XmsgImTcpH2N.heartbeat (cfg : XscCfg) (hb : UInt32) (clock lastHbTs now : UInt64) :
    UInt64 × Bool :=
  if HbHeld cfg hb lastHbTs now then (lastHbTs, false) else (clock, true)

/-- A channel object: `est` and what else its threads share, its table, and the stamp of the
last ping. -/
structure H2nAlive (M : Type) where
  run : H2nRun := {}
  ch : XmsgImChannel M
  lastHbTs : UInt64
  /-- `Xsc::clock`, when the object was constructed and now. -/
  created : UInt64
  clock : UInt64
  /-- The sweeps and the pings of the whole life, newest first. -/
  sweeps : List UInt64 := []
  pings : List UInt64 := []

namespace H2nAlive

/-- `dida`.  While the callbacks of the sweep run, the clock goes on to `clock`. -/
def dida (cfg : XscCfg) (hb : UInt32) (s : H2nAlive M) (now clock : UInt64) : H2nAlive M :=
  if !s.run.est then s
  else
    let hbt := XmsgImTcpH2N.heartbeat cfg hb clock s.lastHbTs now
    { s with
      ch := (s.ch.checkTransInit cfg.sec (s.ch.n2hTransTimeout cfg) now).1
      lastHbTs := hbt.1
      clock := clock
      sweeps := if s.ch.Held cfg.sec now then s.sweeps else now :: s.sweeps
      pings := if hbt.2 then clock :: s.pings else s.pings }

/-- What happens to a channel object. -/
inductive Act (M : Type) where
  | thread (a : H2nRun.Act)
  | futureBegin (trans : XmsgImTransInitiative M)
  | evnEnd (end_ : XscProtoTransaction)
  | clean
  | dida (now : UInt64)
  | advance

/-- One step of the connection, of the channel or of its worker. -/
inductive Step (cfg : XscCfg) (hb : UInt32) : H2nAlive M → Act M → H2nAlive M → Prop
  /-- A thread or the worker goes on with connecting, or the connection is lost. -/
  | thread (s) {a run'} : H2nRun.Step s.run a run' →
      Step cfg hb s (.thread a) { s with run := run' }
  | futureBegin (s) (trans) :
      Step cfg hb s (.futureBegin trans) { s with ch := (s.ch.futureBegin trans).1 }
  | evnEnd (s) (end_) : Step cfg hb s (.evnEnd end_) { s with ch := (s.ch.evnEnd end_).1 }
  | clean (s) : s.run.est = false → Step cfg hb s .clean { s with ch := s.ch.clean.1 }
  /-- The worker calls `dida` with a reading of the clock, maybe of a while ago. -/
  | dida (s) (now) {clock} : now ≤ s.clock → s.clock ≤ clock →
      Step cfg hb s (.dida now) (s.dida cfg hb now clock)
  | advance (s) {clock} : s.clock ≤ clock → Step cfg hb s .advance { s with clock := clock }

/-- A channel object as constructed. -/
structure Fresh (s : H2nAlive M) : Prop where
  run : s.run = {}
  pro : s.ch.pro = .XSC_PROTOCOL_TCP
  at_ : s.ch.at_ = .ACTOR_H2N
  lastCheck : s.ch.lastCheckTransTs = s.created
  lastHb : s.lastHbTs = s.created
  clock : s.clock = s.created
  sweeps : s.sweeps = []
  pings : s.pings = []

/-- The life of a channel object, with all its connections. -/
def system (M : Type) (cfg : XscCfg) (hb : UInt32) : System (H2nAlive M) (Act M) where
  init := Fresh
  step := Step cfg hb

/-! ## The two throttles -/

/-- The time between sweeps. -/
def sweepPeriod (cfg : XscCfg) : UInt64 := 10 * cfg.sec

/-- What holds the sweeps back: they start with the construction of the channel. -/
def sweepThrottle (s : H2nAlive M) : Throttle where
  start := s.created.toNat
  fired := s.sweeps.map UInt64.toNat

/-- What holds the heartbeats back. -/
def pingThrottle (s : H2nAlive M) : Throttle where
  start := s.created.toNat
  fired := s.pings.map UInt64.toNat

variable {cfg : XscCfg} {hb : UInt32} {s s' : H2nAlive M} {a : Act M} {now clock : UInt64}

/-- The stamps of the object are the last ones of the throttles. -/
structure Stamped (s : H2nAlive M) : Prop where
  sweep : s.sweepThrottle.last = s.ch.lastCheckTransTs.toNat
  ping : s.pingThrottle.last = s.lastHbTs.toNat
  sweepPast : s.ch.lastCheckTransTs ≤ s.clock
  pingPast : s.lastHbTs ≤ s.clock

theorem Fresh.stamped (h : s.Fresh) : s.Stamped := by
  refine ⟨?_, ?_, ?_, ?_⟩
  · rw [sweepThrottle, h.sweeps, h.lastCheck]
    rfl
  · rw [pingThrottle, h.pings, h.lastHb]
    rfl
  · exact (h.lastCheck.trans h.clock.symm) ▸ UInt64.le_refl _
  · exact (h.lastHb.trans h.clock.symm) ▸ UInt64.le_refl _

/-- The sum that a stamp is compared with does not wrap around before the clock does. -/
theorem lt_add_iff {last period : UInt64} (hlast : last ≤ clock)
    (hwrap : clock.toNat + period.toNat < 2 ^ 64) :
    now < last + period ↔ now.toNat < last.toNat + period.toNat := by
  have hle : last.toNat ≤ clock.toNat := hlast
  rw [UInt64.lt_iff_toNat_lt, UInt64.toNat_add, Nat.mod_eq_of_lt (by omega)]

/-- Without a connection the tick does nothing. -/
theorem dida_of_down (h : s.run.est = false) : s.dida cfg hb now clock = s := by
  unfold dida
  rw [h]
  rfl

/-- With one it sweeps and sends a heartbeat, each unless its throttle holds it back. -/
theorem dida_of_est (h : s.run.est = true) :
    s.dida cfg hb now clock = { s with
      ch := (s.ch.checkTransInit cfg.sec (s.ch.n2hTransTimeout cfg) now).1
      lastHbTs := if HbHeld cfg hb s.lastHbTs now then s.lastHbTs else clock
      clock := clock
      sweeps := if s.ch.Held cfg.sec now then s.sweeps else now :: s.sweeps
      pings := if HbHeld cfg hb s.lastHbTs now then s.pings else clock :: s.pings } := by
  unfold dida XmsgImTcpH2N.heartbeat
  rw [h]
  by_cases hheld : HbHeld cfg hb s.lastHbTs now
  · rw [if_pos hheld, if_pos hheld, if_pos hheld]
    rfl
  · rw [if_neg hheld, if_neg hheld, if_neg hheld]
    rfl

/-- The time stamp of a sweep changes only when the sweep is not held back. -/
theorem checkTransInit_last (c : XmsgImChannel M) (sec : UInt64) (tm : Int32) (now : UInt64) :
    (c.checkTransInit sec tm now).1.lastCheckTransTs =
      if c.Held sec now then c.lastCheckTransTs else now := by
  by_cases hheld : c.Held sec now
  · rw [XmsgImChannel.checkTransInit_of_held hheld, if_pos hheld]
  · rw [XmsgImChannel.checkTransInit_of_not_held hheld, if_neg hheld]

/-- `clean` leaves the time stamp of the sweeps alone. -/
theorem clean_last (c : XmsgImChannel M) : c.clean.1.lastCheckTransTs = c.lastCheckTransTs := by
  unfold XmsgImChannel.clean
  cases c.pro <;> rfl

/-- A tick stamps with a time that is not ahead of the clock. -/
theorem Stamped.dida (h : s.Stamped) (hnow : now ≤ s.clock) (hclock : s.clock ≤ clock) :
    (s.dida cfg hb now clock).Stamped := by
  cases hest : s.run.est with
  | false => exact (dida_of_down hest).symm ▸ h
  | true =>
      rw [dida_of_est hest]
      refine ⟨?_, ?_, ?_, ?_⟩
      · show Throttle.last ⟨_, List.map _ _⟩ = UInt64.toNat (XmsgImChannel.lastCheckTransTs _)
        rw [checkTransInit_last]
        by_cases hheld : s.ch.Held cfg.sec now
        · rw [if_pos hheld, if_pos hheld]
          exact h.sweep
        · rw [if_neg hheld, if_neg hheld]
          rfl
      · show Throttle.last ⟨_, List.map _ _⟩ = UInt64.toNat (ite _ _ _)
        by_cases hheld : HbHeld cfg hb s.lastHbTs now
        · rw [if_pos hheld, if_pos hheld]
          exact h.ping
        · rw [if_neg hheld, if_neg hheld]
          rfl
      · exact XmsgImChannel.checkTransInit_last_le (UInt64.le_trans h.sweepPast hclock)
          (UInt64.le_trans hnow hclock)
      · show ite _ _ _ ≤ clock
        split
        · exact UInt64.le_trans h.pingPast hclock
        · exact UInt64.le_refl clock

/-- On an established channel `dida` is a try of both throttles. -/
theorem dida_throttles (h : s.Stamped) (hest : s.run.est = true)
    (hsweep : s.clock.toNat + (sweepPeriod cfg).toNat < 2 ^ 64)
    (hping : s.clock.toNat + (hbPeriod cfg hb).toNat < 2 ^ 64) :
    (s.dida cfg hb now clock).sweepThrottle =
        s.sweepThrottle.attempt (sweepPeriod cfg).toNat now.toNat now.toNat ∧
      (s.dida cfg hb now clock).pingThrottle =
        s.pingThrottle.attempt (hbPeriod cfg hb).toNat now.toNat clock.toNat := by
  have hheld : s.ch.Held cfg.sec now ↔
      now.toNat < s.sweepThrottle.last + (sweepPeriod cfg).toNat := by
    rw [h.sweep]
    exact lt_add_iff h.sweepPast hsweep
  have hhb : HbHeld cfg hb s.lastHbTs now ↔
      now.toNat < s.pingThrottle.last + (hbPeriod cfg hb).toNat := by
    rw [h.ping]
    exact lt_add_iff h.pingPast hping
  rw [dida_of_est hest]
  unfold Throttle.attempt
  constructor
  · by_cases hs : s.ch.Held cfg.sec now
    · rw [if_pos (hheld.mp hs)]
      simp [sweepThrottle, hs]
    · rw [if_neg (fun hlt => hs (hheld.mpr hlt))]
      simp [sweepThrottle, hs]
  · by_cases hp : HbHeld cfg hb s.lastHbTs now
    · rw [if_pos (hhb.mp hp)]
      simp [pingThrottle, hp]
    · rw [if_neg (fun hlt => hp (hhb.mpr hlt))]
      simp [pingThrottle, hp]

/-! ## A whole life -/

/-- Neither sum wraps around up to now. -/
def NoWrap (cfg : XscCfg) (hb : UInt32) (s : H2nAlive M) : Prop :=
  s.clock.toNat + (sweepPeriod cfg).toNat < 2 ^ 64 ∧ s.clock.toNat + (hbPeriod cfg hb).toNat < 2 ^ 64

/-- The stamps are those of the sweeps and the pings, which are a period apart until the
clock wraps around. -/
structure Inv (cfg : XscCfg) (hb : UInt32) (s : H2nAlive M) : Prop where
  stamped : s.Stamped
  sweeps : s.NoWrap cfg hb → Spaced (sweepPeriod cfg).toNat s.sweepThrottle.stamps
  pings : s.NoWrap cfg hb → Spaced (hbPeriod cfg hb).toNat s.pingThrottle.stamps

theorem Fresh.inv (h : s.Fresh) : s.Inv cfg hb := by
  refine ⟨h.stamped, fun _ => ?_, fun _ => ?_⟩
  · rw [sweepThrottle, h.sweeps]
    exact List.pairwise_singleton _ _
  · rw [pingThrottle, h.pings]
    exact List.pairwise_singleton _ _

theorem NoWrap.mono {s s' : H2nAlive M} (h : s'.NoWrap cfg hb) (hle : s.clock ≤ s'.clock) :
    s.NoWrap cfg hb := by
  have hle : s.clock.toNat ≤ s'.clock.toNat := hle
  obtain ⟨hsweep, hping⟩ := h
  exact ⟨by omega, by omega⟩

/-- A step that leaves the stamps alone. -/
theorem Inv.keep (h : s.Inv cfg hb) (hclock : s.clock ≤ s'.clock)
    (hlast : s'.ch.lastCheckTransTs = s.ch.lastCheckTransTs) (hhb : s'.lastHbTs = s.lastHbTs)
    (hsweep : s'.sweepThrottle = s.sweepThrottle) (hping : s'.pingThrottle = s.pingThrottle) :
    s'.Inv cfg hb := by
  refine ⟨⟨?_, ?_, ?_, ?_⟩, fun hwrap => ?_, fun hwrap => ?_⟩
  · rw [hsweep, hlast]
    exact h.stamped.sweep
  · rw [hping, hhb]
    exact h.stamped.ping
  · rw [hlast]
    exact UInt64.le_trans h.stamped.sweepPast hclock
  · rw [hhb]
    exact UInt64.le_trans h.stamped.pingPast hclock
  · rw [hsweep]
    exact h.sweeps (hwrap.mono hclock)
  · rw [hping]
    exact h.pings (hwrap.mono hclock)

/-- A tick is one attempt at each of the two throttles. -/
theorem Inv.dida (h : s.Inv cfg hb) (hnow : now ≤ s.clock) (hclock : s.clock ≤ clock) :
    (s.dida cfg hb now clock).Inv cfg hb := by
  cases hest : s.run.est with
  | false => exact (dida_of_down hest).symm ▸ h
  | true =>
      have hnext : (s.dida cfg hb now clock).clock = clock := by rw [dida_of_est hest]
      refine ⟨h.stamped.dida hnow hclock, fun hwrap => ?_, fun hwrap => ?_⟩
      · have hbefore := hwrap.mono (s := s) (hclock.trans_eq hnext.symm)
        rw [(dida_throttles h.stamped hest hbefore.1 hbefore.2).1]
        exact Throttle.spaced_attempt (h.sweeps hbefore) (Nat.le_refl _)
      · have hbefore := hwrap.mono (s := s) (hclock.trans_eq hnext.symm)
        rw [(dida_throttles h.stamped hest hbefore.1 hbefore.2).2]
        exact Throttle.spaced_attempt (h.pings hbefore) (UInt64.le_trans hnow hclock)

/-- Only a tick concerns the throttles. -/
theorem Step.inv (h : s.Inv cfg hb) (hstep : Step cfg hb s a s') : s'.Inv cfg hb := by
  cases hstep with
  | thread _ => exact h.keep (UInt64.le_refl _) rfl rfl rfl rfl
  | futureBegin trans => exact h.keep (UInt64.le_refl _) rfl rfl rfl rfl
  | evnEnd end_ => exact h.keep (UInt64.le_refl _) (XmsgImChannel.evnEnd_last end_) rfl rfl rfl
  | clean _ => exact h.keep (UInt64.le_refl _) (clean_last s.ch) rfl rfl rfl
  | dida now hnow hclock => exact h.dida hnow hclock
  | advance hclock => exact h.keep hclock rfl rfl rfl rfl

theorem reachable_inv (h : Reachable (system M cfg hb) Always s) : s.Inv cfg hb :=
  h.invariant (fun _ hfresh => Fresh.inv hfresh) (fun _ _ _ hinv _ hstep => Step.inv hinv hstep)

end H2nAlive

/-- The runs of the threads are runs of the channel object. -/
theorem H2nAlive.reachable_thread {cfg : XscCfg} {hb : UInt32} {s : H2nAlive M} (hfresh : s.Fresh)
    {run : H2nRun} (h : Reachable h2nSystem Always run) :
    Reachable (H2nAlive.system M cfg hb) Always { s with run := run } := by
  induction h with
  | init h0 =>
      have heq : { s with run := {} } = s := by rw [← hfresh.run]
      rw [h0, heq]
      exact .init hfresh
  | step _ _ hstep ih => exact .step ih trivial (H2nAlive.Step.thread _ hstep)

/-- In the whole life of an H2N channel object, over all its connections and whatever the
threads that connect it do: its sweeps and its pings fit into the time since it was
constructed, and at most as many fall into any window of time as whole periods fit into it,
and one more.  And `dida`, called with `now` on the established channel, leaves the last sweep
and the last ping less than a period behind `now`. -/
theorem sweeps_and_heartbeats_throttled {cfg : XscCfg} {hb : UInt32} {s : H2nAlive M}
    (h : Reachable (H2nAlive.system M cfg hb) Always s) (hwrap : s.NoWrap cfg hb) :
    s.sweepThrottle.Limited (H2nAlive.sweepPeriod cfg).toNat s.clock.toNat ∧
      s.pingThrottle.Limited (hbPeriod cfg hb).toNat s.clock.toNat ∧
      ∀ now s', H2nAlive.Step cfg hb s (.dida now) s' → s.run.est = true →
        (now.toNat ≤ s'.sweepThrottle.last ∨
          now.toNat < s'.sweepThrottle.last + (H2nAlive.sweepPeriod cfg).toNat) ∧
        (now.toNat ≤ s'.pingThrottle.last ∨
          now.toNat < s'.pingThrottle.last + (hbPeriod cfg hb).toNat) := by
  have hinv := H2nAlive.reachable_inv h
  refine ⟨?_, ?_, ?_⟩
  · refine Throttle.limited (hinv.sweeps hwrap) ?_
    rw [hinv.stamped.sweep]
    exact hinv.stamped.sweepPast
  · refine Throttle.limited (hinv.pings hwrap) ?_
    rw [hinv.stamped.ping]
    exact hinv.stamped.pingPast
  · intro now s' hstep hest
    cases hstep with
    | dida _ hnow hclock =>
        obtain ⟨hsweep, hping⟩ := H2nAlive.dida_throttles hinv.stamped hest hwrap.1 hwrap.2
        rw [hsweep, hping]
        exact ⟨Throttle.recent (Nat.le_refl _), Throttle.recent (UInt64.le_trans hnow hclock)⟩

/-! A channel that was constructed at 0 and is established, with a heartbeat every 5 seconds:
`dida` at 6000 pings, and the one at 12000 pings again and sweeps. -/

/-- The channel as it is constructed at 0. -/
def H2nAlive.sample : H2nAlive SampleMsg where
  ch := { (Exec.start .XSC_PROTOCOL_TCP).ch with at_ := .ACTOR_H2N }
  lastHbTs := 0
  created := 0
  clock := 0

/-- Connected by the first attempt, after the worker has executed both closures. -/
def H2nRun.sampleUp : H2nRun :=
  ({ ({} : H2nRun).connectTest.attempt 5 with queue := [] }.runClosure .register).runClosure
    (.establish 5)

theorem H2nRun.sampleUp_reachable : Reachable h2nSystem Always sampleUp := by
  have hcalled : Reachable h2nSystem Always ({} : H2nRun).connectTest :=
    .step (a := .connectTest) (.init rfl) trivial (.connectTest _)
  have hqueued := reachable_attempt (fun _ _ => trivial) hcalled (by decide) rfl trivial 5
    (by decide)
  exact (hqueued.step trivial (.run _ rfl)).step trivial (.run _ rfl)

/-- After both calls of `dida`. -/
def H2nAlive.sampleLater : H2nAlive SampleMsg :=
  { ({ { H2nAlive.sample with run := H2nRun.sampleUp, clock := 6000 }.dida sampleCfg 5 6000 6000 with
    clock := 12000 } : H2nAlive SampleMsg).dida sampleCfg 5 12000 12000 with clock := 20000 }

theorem H2nAlive.sampleLater_reachable :
    Reachable (H2nAlive.system SampleMsg sampleCfg 5) Always sampleLater := by
  have hfresh : H2nAlive.sample.Fresh := ⟨rfl, rfl, rfl, rfl, rfl, rfl, rfl, rfl⟩
  have hup : Reachable (H2nAlive.system SampleMsg sampleCfg 5) Always
      { H2nAlive.sample with run := H2nRun.sampleUp } :=
    reachable_thread hfresh H2nRun.sampleUp_reachable
  have hsoon := hup.step trivial (.advance _ (show _ ≤ (6000 : UInt64) by decide))
  have hfirst := hsoon.step trivial (.dida _ 6000 (by decide) (show _ ≤ (6000 : UInt64) by decide))
  have hlate := hfirst.step trivial (.advance _ (show _ ≤ (12000 : UInt64) by decide))
  have hsecond := hlate.step trivial (.dida _ 12000 (by decide) (show _ ≤ (12000 : UInt64) by decide))
  exact hsecond.step trivial (.advance _ (show _ ≤ (20000 : UInt64) by decide))

theorem sweeps_and_heartbeats_throttled_sample :
    H2nAlive.sampleLater.sweeps = [12000] ∧ H2nAlive.sampleLater.pings = [12000, 6000] ∧
      H2nAlive.sampleLater.sweepThrottle.Limited 10000 20000 ∧
      H2nAlive.sampleLater.pingThrottle.Limited 5000 20000 := by
  have hwrap : H2nAlive.sampleLater.NoWrap sampleCfg 5 := ⟨by decide, by decide⟩
  obtain ⟨hsweep, hping, -⟩ :=
    sweeps_and_heartbeats_throttled H2nAlive.sampleLater_reachable hwrap
  exact ⟨by decide, by decide, hsweep, hping⟩

end XmsgImXsc
