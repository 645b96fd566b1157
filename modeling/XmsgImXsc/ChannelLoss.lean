/-
# XmsgImXsc.ChannelLoss -- outstanding transactions when a channel is lost

When a channel is lost, `est` becomes false and the virtual `clean()` of its class runs.
The first part is about `clean()` alone: which classes end every outstanding transaction.
The second part is about the life of a TCP or RUDP channel, where transactions begin in
closures that may still be queued when the channel is lost.
-/
import XmsgImXsc.ChannelRun

namespace XmsgImXsc

open Lts

variable {D M : Type} {K : XscProto} {pb : Protobuf D M} {e e' : Exec M} {a : Act M}

/-! ## Runs without a begin -/

/-- The guard of the runs in which no queued begin is executed.  The worker executes no
queued closure while it is inside an operation. -/
def NoBegin (_ : Exec M) : Act M → Prop
  | .futureBegin _ => False
  | _ => True

/-- An empty table stays empty until the next begin. -/
theorem Step.pending_eq_nil (hstep : Step K pb e a e') (hG : NoBegin e a)
    (hempty : e.ch.pending = []) : e'.ch.pending = [] := by
  rcases hstep.cases_ with ⟨trans, rfl, -, -⟩ | ⟨ch, bs, htake, rfl⟩ |
    ⟨bs, rest, -, rfl⟩ | rfl | ⟨t, hperm, rfl⟩
  · exact absurd hG id
  · rw [Exec.takeOut_ch]
    exact (htake.empty hempty).2
  · rw [Exec.enter_ch]
    exact hempty
  · exact hempty
  · have hvalues : (Tables.values t).Perm e.ch.pending := hperm.map _
    rw [hempty] at hvalues
    exact hvalues.eq_nil

/-! ## Running `clean()` -/

/-- The runs of the channel that start with `clean()`. -/
def cleanSystem (K : XscProto) (pb : Protobuf D M) (e : Exec M) : System (Exec M) (Act M) where
  init e' := e' = e.clean K pb
  step := Step K pb

/-- What `clean()` owes to the outstanding transactions: it can return, and when it has
returned the table is empty and each of them has had its callback, once, with
`RET_TIME_OUT`. -/
def CleanDrains (K : XscProto) (pb : Protobuf D M) (e : Exec M) : Prop :=
  (∃ e', Reachable (cleanSystem K pb e) NoBegin e' ∧ e'.stack = e.stack) ∧
    ∀ e', Reachable (cleanSystem K pb e) NoBegin e' → e'.stack = e.stack →
      e'.ch.transInit = ∅ ∧
        ∀ t ∈ e.ch.pending, e'.callbacks t.ptr = [(K.RET_TIME_OUT, ("local clean" : Text))]

/-- The innermost callback returns, and the next one of its call begins. -/
theorem reachable_cbReturn {S : System (Exec M) (Act M)} (hS : S.step = Step K pb)
    {bs : List (Taken M)} {rest : List (List (Taken M))} (hstack : e.stack = bs :: rest)
    (h : Reachable S NoBegin e) :
    Reachable S NoBegin ({ e with stack := rest }.enter K pb bs) := by
  refine h.step (a := .cbReturn) trivial ?_
  rw [hS]
  exact .cbReturn e hstack

/-- An operation in progress returns when its remaining callbacks do. -/
theorem reachable_return {S : System (Exec M) (Act M)} (hS : S.step = Step K pb)
    {rest : List (List (Taken M))} (bs : List (Taken M)) {e : Exec M}
    (hstack : e.stack = bs :: rest) (h : Reachable S NoBegin e) :
    ∃ e', Reachable S NoBegin e' ∧ e'.stack = rest := by
  induction bs generalizing e with
  | nil => exact ⟨_, reachable_cbReturn hS hstack h, rfl⟩
  | cons b bs ih =>
      -- the next callback runs in the frame of the operation, with one transaction less
      exact ih rfl (reachable_cbReturn hS hstack h)

/-- `clean()` empties the table on TCP and RUDP, and leaves an empty table empty. -/
theorem XmsgImChannel.clean_drained {c : XmsgImChannel M}
    (h : c.pro = .XSC_PROTOCOL_TCP ∨ c.pro = .XSC_PROTOCOL_RUDP ∨ c.transInit = ∅) :
    c.clean.2 = c.pending ∧ c.clean.1.pending = [] := by
  rcases h with hpro | hpro | hempty
  · unfold clean
    rw [hpro]
    exact ⟨rfl, rfl⟩
  · unfold clean
    rw [hpro]
    exact ⟨rfl, rfl⟩
  · have hpending := pending_eq_nil_iff.mpr hempty
    rw [hpending]
    exact c.clean_takesOut.empty hpending

/-- `clean()` of the three other classes does nothing. -/
theorem XmsgImChannel.clean_idle {c : XmsgImChannel M} (htcp : c.pro ≠ .XSC_PROTOCOL_TCP)
    (hrudp : c.pro ≠ .XSC_PROTOCOL_RUDP) : c.clean = (c, []) := by
  unfold clean
  cases hpro : c.pro with
  | XSC_PROTOCOL_TCP => exact absurd hpro htcp
  | XSC_PROTOCOL_RUDP => exact absurd hpro hrudp
  | XSC_PROTOCOL_HTTP => rfl
  | XSC_PROTOCOL_WEBSOCKET => rfl
  | XSC_PROTOCOL_UDP => rfl

/-- While `clean()` runs, the table is empty and the transactions that were outstanding are
on record as taken out by it. -/
theorem cleanSystem_inv (h : e.Inv K pb) (hdrained : e.ch.clean.2 = e.ch.pending)
    (hempty : e.ch.clean.1.pending = []) (hr : Reachable (cleanSystem K pb e) NoBegin e') :
    e'.Inv K pb ∧ e'.ch.pending = [] ∧
      ∀ t ∈ e.ch.pending, (⟨t, .byClean⟩ : Taken M) ∈ e'.removed := by
  apply hr.invariant
    (I := fun e' => e'.Inv K pb ∧ e'.ch.pending = [] ∧
      ∀ t ∈ e.ch.pending, (⟨t, .byClean⟩ : Taken M) ∈ e'.removed)
  · intro e' hinit
    have heq : e' = e.clean K pb := hinit
    subst heq
    refine ⟨(Step.clean e).inv h, ?_, ?_⟩
    · rw [Exec.clean, Exec.takeOut_ch]
      exact hempty
    · intro t ht
      rw [Exec.clean, Exec.takeOut_removed, hdrained]
      exact List.mem_append_left _ (List.mem_map.mpr ⟨t, ht, rfl⟩)
  · rintro e₁ a e₂ ⟨hinv, hnil, hremoved⟩ hG hstep
    have hstep : Step K pb e₁ a e₂ := hstep
    refine ⟨hstep.inv hinv, hstep.pending_eq_nil hG hnil, ?_⟩
    intro t ht
    exact hstep.removed_subset (hremoved t ht)

/-- The callbacks of `clean` can all return. -/
theorem Exec.clean_can_return (K : XscProto) (pb : Protobuf D M) (e : Exec M) :
    ∃ e', Reachable (cleanSystem K pb e) NoBegin e' ∧ e'.stack = e.stack := by
  have hinit : Reachable (cleanSystem K pb e) NoBegin (e.clean K pb) := .init rfl
  cases hbs : e.ch.clean.2.map (⟨·, .byClean⟩ : _ → Taken M) with
  | nil =>
      refine ⟨_, hinit, ?_⟩
      rw [Exec.clean, hbs]
      rfl
  | cons b bs =>
      refine reachable_return rfl bs ?_ hinit
      rw [Exec.clean, hbs]
      rfl

/-- In every reachable state, `clean()` ends the outstanding transactions exactly on the TCP
and RUDP channels, and where there are none. -/
theorem clean_drains_iff (K : XscProto) (pb : Protobuf D M) {e : Exec M}
    (h : Reachable (execSystem K pb) Always e) :
    CleanDrains K pb e ↔
      e.ch.pro = .XSC_PROTOCOL_TCP ∨ e.ch.pro = .XSC_PROTOCOL_RUDP ∨ e.ch.transInit = ∅ := by
  have hinv := reachable_inv h
  constructor
  · rintro ⟨-, hdrains⟩
    by_cases htcp : e.ch.pro = .XSC_PROTOCOL_TCP
    · exact .inl htcp
    by_cases hrudp : e.ch.pro = .XSC_PROTOCOL_RUDP
    · exact .inr (.inl hrudp)
    have hidle : e.clean K pb = e := by
      unfold Exec.clean
      rw [XmsgImChannel.clean_idle htcp hrudp]
      rfl
    refine .inr (.inr (hdrains e ?_ rfl).1)
    exact .init hidle.symm
  · intro hpro
    obtain ⟨hdrained, hempty⟩ := XmsgImChannel.clean_drained hpro
    refine ⟨e.clean_can_return K pb, ?_⟩
    intro e' hr hstack
    obtain ⟨hinv', hnil, hremoved⟩ := cleanSystem_inv hinv hdrained hempty hr
    refine ⟨XmsgImChannel.pending_eq_nil_iff.mp hnil, ?_⟩
    intro t ht
    -- what waits in the operations around `clean()` was taken out before
    have hnot : (⟨t, .byClean⟩ : Taken M) ∉ e'.stack.flatten := by
      rw [hstack]
      intro hwait
      have htaken := hinv.books.queued.mem_iff.mpr (List.mem_append_left _ hwait)
      exact hinv.books.open_not_taken ht htaken rfl
    exact hinv'.callbacks_of_removed (hremoved t ht) hnot

theorem Exec.twoPending_always (pro : XscProtocolType) :
    Reachable (execSystem .sample samplePb) Always (Exec.twoPending pro) :=
  (Exec.twoPending_reachable pro).mono fun _ _ _ => trivial

theorem clean_drains_tcp : CleanDrains .sample samplePb (Exec.twoPending .XSC_PROTOCOL_TCP) :=
  (clean_drains_iff _ _ (Exec.twoPending_always _)).mpr (.inl rfl)

/-- On a WebSocket channel two outstanding transactions stay in the table, and their
callbacks are not invoked. -/
theorem clean_leaves_webSocket_pending :
    Reachable (execSystem .sample samplePb) Always
        (Exec.twoPending .XSC_PROTOCOL_WEBSOCKET) ∧
      (Exec.twoPending .XSC_PROTOCOL_WEBSOCKET).ch.pending.length = 2 ∧
      ((Exec.twoPending .XSC_PROTOCOL_WEBSOCKET).clean .sample samplePb).callbacks 1 = [] ∧
      ¬ CleanDrains .sample samplePb (Exec.twoPending .XSC_PROTOCOL_WEBSOCKET) := by
  refine ⟨Exec.twoPending_always _, rfl, rfl, ?_⟩
  rintro ⟨-, hdrains⟩
  have hnil := (hdrains (Exec.twoPending .XSC_PROTOCOL_WEBSOCKET) (.init rfl) rfl).1
  have hlength := congrArg (fun t => t.entries.length) hnil
  revert hlength
  decide

/-! ## The life of a TCP or RUDP channel -/

/-- How far the `clean()` of the last loss is: not run, running since the operations in
progress were `depth` many, or completed. -/
inductive Cleanup where
  | notRun
  | running (depth : Nat)
  | completed
  deriving Repr, DecidableEq

/-- A running `clean()` is completed when the operations in progress are down to those
around it. -/
def Cleanup.goOn (depth : Nat) : Cleanup → Cleanup
  | .running around => if depth ≤ around then .completed else .running around
  | .notRun => .notRun
  | .completed => .completed

theorem Cleanup.goOn_eq_running {c : Cleanup} {depth around : Nat}
    (h : c.goOn depth = .running around) : around < depth := by
  cases c with
  | notRun => cases h
  | completed => cases h
  | running around' =>
      simp only [goOn] at h
      by_cases hle : depth ≤ around'
      · rw [if_pos hle] at h
        cases h
      · rw [if_neg hle] at h
        cases h
        omega

/-- A channel with the `futureBegin` closures queued on its worker. -/
structure ChannelLife (M : Type) where
  exec : Exec M
  queue : List (XmsgImTransInitiative M) := []
  est : Bool
  cleanup : Cleanup := .notRun

/-- The steps in the life of a channel.  `begin_` queues a closure, `runFuture` executes the
first one. -/
inductive LifeAct (M : Type) where
  | begin_ (trans : XmsgImTransInitiative M)
  | runFuture
  | evnEnd (pdu : XscProtoPdu) (end_ : XscProtoTransaction)
  | dida (now : UInt64)
  | lose
  | clean
  | establish
  | cbReturn
  | rehash (transInit : TransInit M)

namespace ChannelLife

/-- `dida`, the same in `XmsgImTcpN2H`, `XmsgImTcpH2N` and `XmsgImRudpChannel` as far as
transactions go. -/
def dida (cfg : XscCfg) (K : XscProto) (pb : Protobuf D M) (s : ChannelLife M) (now : UInt64) :
    Exec M :=
  if !s.est then s.exec
  else s.exec.checkTransInit K pb cfg.sec (s.exec.ch.n2hTransTimeout cfg) now

/-- Go on with the channel `e`. -/
def goOn (s : ChannelLife M) (e : Exec M) : ChannelLife M :=
  { s with exec := e, cleanup := s.cleanup.goOn e.stack.length }

/-- The property of a state: a channel that is down and cleaned has no transaction in its
table. -/
def NotParked (s : ChannelLife M) : Prop :=
  s.est = false → s.cleanup = .completed → s.exec.ch.transInit = ∅

end ChannelLife

/-- One step in the life of a channel.  The worker executes a queued closure only while it
is in no other operation. -/
inductive LifeStep (cfg : XscCfg) (K : XscProto) (pb : Protobuf D M) :
    ChannelLife M → LifeAct M → ChannelLife M → Prop
  | begin_ (s) (trans) :
      LifeStep cfg K pb s (.begin_ trans) { s with queue := s.queue ++ [trans] }
  | runFuture (s) {trans rest e} : s.queue = trans :: rest → s.exec.stack = [] →
      Step K pb s.exec (.futureBegin trans) e →
      LifeStep cfg K pb s .runFuture { s with exec := e, queue := rest }
  | evnEnd (s) {pdu end_ e} : Step K pb s.exec (.evnEnd pdu end_) e →
      LifeStep cfg K pb s (.evnEnd pdu end_) (s.goOn e)
  | dida (s) (now) : LifeStep cfg K pb s (.dida now) (s.goOn (s.dida cfg K pb now))
  | lose (s) : s.est = true →
      LifeStep cfg K pb s .lose { s with est := false, cleanup := .notRun }
  | clean (s) : s.est = false → s.cleanup = .notRun →
      LifeStep cfg K pb s .clean
        ({ s with cleanup := .running s.exec.stack.length }.goOn (s.exec.clean K pb))
  | establish (s) : s.est = false → s.exec.stack = [] →
      LifeStep cfg K pb s .establish { s with est := true, cleanup := .notRun }
  | cbReturn (s) {e} : Step K pb s.exec .cbReturn e → LifeStep cfg K pb s .cbReturn (s.goOn e)
  | rehash (s) {t e} : Step K pb s.exec (.rehash t) e →
      LifeStep cfg K pb s (.rehash t) (s.goOn e)

/-- A TCP or RUDP channel as constructed, established or not yet. -/
structure ChannelLife.Fresh (s : ChannelLife M) : Prop where
  exec : s.exec.Fresh
  pro : s.exec.ch.pro = .XSC_PROTOCOL_TCP ∨ s.exec.ch.pro = .XSC_PROTOCOL_RUDP
  queue : s.queue = []
  cleanup : s.cleanup = .notRun

/-- The lives of a channel. -/
def lifeSystem (cfg : XscCfg) (K : XscProto) (pb : Protobuf D M) :
    System (ChannelLife M) (LifeAct M) where
  init := ChannelLife.Fresh
  step := LifeStep cfg K pb

/-- The guard of the runs in which no `futureBegin` closure is executed while the channel
is down and cleaned. -/
def NoLateBegin (s : ChannelLife M) : LifeAct M → Prop
  | .runFuture => s.est = true ∨ s.cleanup ≠ .completed
  | _ => True

namespace ChannelLife

/-- What holds in the runs without a late begin. -/
structure Inv (s : ChannelLife M) : Prop where
  pro : s.exec.ch.pro = .XSC_PROTOCOL_TCP ∨ s.exec.ch.pro = .XSC_PROTOCOL_RUDP
  down : s.cleanup ≠ .notRun → s.est = false
  inside : ∀ depth, s.cleanup = .running depth → depth < s.exec.stack.length
  drained : s.cleanup ≠ .notRun → s.exec.ch.pending = []

variable {cfg : XscCfg} {s s' : ChannelLife M}

/-- It holds of a fresh channel, whose cleanup has not run. -/
theorem Fresh.inv (h : s.Fresh) : s.Inv := by
  refine ⟨h.pro, ?_, ?_, ?_⟩
  · intro hne
    exact absurd h.cleanup hne
  · intro depth hrunning
    rw [h.cleanup] at hrunning
    cases hrunning
  · intro hne
    exact absurd h.cleanup hne

/-- Going on with a channel that is as empty as the cleanup requires. -/
theorem goOn_inv {e : Exec M}
    (hpro : e.ch.pro = .XSC_PROTOCOL_TCP ∨ e.ch.pro = .XSC_PROTOCOL_RUDP)
    (hdown : s.cleanup ≠ .notRun → s.est = false)
    (hdrained : s.cleanup ≠ .notRun → e.ch.pending = []) : (s.goOn e).Inv := by
  have hrun (hne : (s.goOn e).cleanup ≠ .notRun) : s.cleanup ≠ .notRun := by
    intro hnot
    apply hne
    show s.cleanup.goOn e.stack.length = .notRun
    rw [hnot]
    rfl
  refine ⟨hpro, fun hne => hdown (hrun hne), ?_, fun hne => hdrained (hrun hne)⟩
  intro depth hrunning
  exact Cleanup.goOn_eq_running hrunning

/-- `dida` sweeps the table of an established channel. -/
theorem dida_of_est (hest : s.est = true) (now : UInt64) :
    s.dida cfg K pb now =
      s.exec.checkTransInit K pb cfg.sec (s.exec.ch.n2hTransTimeout cfg) now := by
  unfold dida
  rw [hest]
  rfl

/-- A channel that is down does nothing on its tick. -/
theorem dida_of_down (hest : s.est = false) (now : UInt64) : s.dida cfg K pb now = s.exec := by
  unfold dida
  rw [hest]
  rfl

/-- A step of the channel that begins nothing keeps the invariant. -/
theorem step_goOn_inv (h : s.Inv) {a : Act M} (hstep : Step K pb s.exec a e)
    (hG : NoBegin s.exec a) : (s.goOn e).Inv := by
  apply goOn_inv
  · rw [hstep.pro_eq]
    exact h.pro
  · exact h.down
  · intro hne
    exact hstep.pending_eq_nil hG (h.drained hne)

/-- Every step but a late begin keeps the invariant. -/
theorem Inv.step (h : s.Inv) {a : LifeAct M} (hG : NoLateBegin s a)
    (hstep : LifeStep cfg K pb s a s') : s'.Inv := by
  cases hstep with
  | begin_ trans => exact ⟨h.pro, h.down, h.inside, h.drained⟩
  | runFuture hqueue hidle hbegin =>
      -- the worker is idle, so `clean()` is not running, and the guard excludes the rest
      have hnot : s.cleanup = .notRun := by
        cases hcleanup : s.cleanup with
        | notRun => rfl
        | running depth =>
            have hlt := h.inside depth hcleanup
            rw [hidle] at hlt
            simp at hlt
        | completed =>
            have hdown : s.est = false := h.down (by rw [hcleanup]; exact Cleanup.noConfusion)
            rcases hG with hest | hne
            · rw [hdown] at hest
              cases hest
            · exact absurd hcleanup hne
      refine ⟨?_, fun hne => absurd hnot hne, ?_, fun hne => absurd hnot hne⟩
      · show _ ∨ _
        rw [hbegin.pro_eq]
        exact h.pro
      · intro depth hrunning
        have hrunning : s.cleanup = .running depth := hrunning
        rw [hnot] at hrunning
        cases hrunning
  | evnEnd hend => exact step_goOn_inv h hend trivial
  | dida now =>
      cases hest : s.est with
      | false =>
          rw [dida_of_down hest]
          exact goOn_inv h.pro h.down h.drained
      | true =>
          rw [dida_of_est hest]
          exact step_goOn_inv h (.checkTransInit _ _ _ _) trivial
  | lose hest =>
      refine ⟨h.pro, fun hne => absurd rfl hne, ?_, fun hne => absurd rfl hne⟩
      intro depth hrunning
      cases hrunning
  | clean hest hnot =>
      apply goOn_inv
      · have hclean : Step K pb s.exec .clean (s.exec.clean K pb) := .clean s.exec
        rw [hclean.pro_eq]
        exact h.pro
      · intro _
        exact hest
      · intro _
        have hpro : s.exec.ch.pro = .XSC_PROTOCOL_TCP ∨ s.exec.ch.pro = .XSC_PROTOCOL_RUDP ∨
            s.exec.ch.transInit = ∅ := by
          rcases h.pro with htcp | hrudp
          · exact .inl htcp
          · exact .inr (.inl hrudp)
        rw [Exec.clean, Exec.takeOut_ch]
        exact (XmsgImChannel.clean_drained hpro).2
  | establish hest hidle =>
      refine ⟨h.pro, fun hne => absurd rfl hne, ?_, fun hne => absurd rfl hne⟩
      intro depth hrunning
      cases hrunning
  | cbReturn hreturn => exact step_goOn_inv h hreturn trivial
  | rehash hperm => exact step_goOn_inv h hperm trivial

theorem Inv.notParked (h : s.Inv) : s.NotParked := by
  intro _ hcompleted
  apply XmsgImChannel.pending_eq_nil_iff.mp
  apply h.drained
  rw [hcompleted]
  exact Cleanup.noConfusion

/-- No late begin, no transaction behind the cleanup. -/
theorem reachable_inv (h : Reachable (lifeSystem cfg K pb) NoLateBegin s) : s.Inv :=
  h.invariant (fun _ h0 => Fresh.inv h0) fun _ _ _ hinv hG hstep => hinv.step hG hstep

/-- A late begin parks its transaction. -/
theorem lateBegin_parks {a : LifeAct M} (hstep : LifeStep cfg K pb s a s')
    (hlate : ¬ NoLateBegin s a) : ¬ s'.NotParked := by
  cases hstep with
  | @runFuture t rest e hqueue hidle hbegin =>
      obtain ⟨hest, hcompleted⟩ : ¬ s.est = true ∧ s.cleanup = .completed := by
        simpa only [NoLateBegin, not_or, not_not, ne_eq] using hlate
      intro hnot
      have hempty : e.ch.transInit = ∅ := hnot (by simpa using hest) hcompleted
      cases hbegin
      exact XmsgImChannel.futureBegin_pending_ne_nil s.exec.ch t
        (XmsgImChannel.pending_eq_nil_iff.mpr hempty)
  | begin_ | evnEnd | dida | lose | clean | establish | cbReturn | rehash =>
      exact absurd trivial hlate

end ChannelLife

/-- In every run of a TCP or RUDP channel in which no `futureBegin` closure is executed
while the channel is down and cleaned, no transaction sits in the table of a channel that
is down and cleaned; and the first step that breaks the condition breaks the property. -/
theorem no_transaction_parked (cfg : XscCfg) (K : XscProto) (pb : Protobuf D M)
    {s : ChannelLife M} (h : Reachable (lifeSystem cfg K pb) NoLateBegin s) :
    s.NotParked ∧
      ∀ a s', LifeStep cfg K pb s a s' → (s'.NotParked ↔ NoLateBegin s a) := by
  refine ⟨(ChannelLife.reachable_inv h).notParked, ?_⟩
  intro a s' hstep
  constructor
  · intro hnot
    by_contra hlate
    exact ChannelLife.lateBegin_parks hstep hlate hnot
  · intro hG
    exact ((ChannelLife.reachable_inv h).step hG hstep).notParked

/-! A request is queued on an established TCP channel, which is lost and cleaned before the
worker gets to the queued closure. -/

/-- Seconds of 1000 ticks, and timeouts of ten of them. -/
def sampleCfg : XscCfg where
  sec := 1000
  h2nTransTimeout := 10
  n2hTransTimeout := 10
  rudpN2hTransTimeout := 10

/-- A channel that is up and has begun nothing. -/
def ChannelLife.start (pro : XscProtocolType) : ChannelLife SampleMsg :=
  { exec := Exec.start pro, est := true }

/-- The channel is cleaned, and the closure is still queued. -/
def ChannelLife.lost : ChannelLife SampleMsg :=
  { ChannelLife.start .XSC_PROTOCOL_TCP with
    queue := [XmsgImChannel.begin_ 1 0 (.ping, []) none], est := false, cleanup := .completed }

theorem ChannelLife.lost_reachable :
    Reachable (lifeSystem sampleCfg .sample samplePb) NoLateBegin ChannelLife.lost := by
  have hstart : (ChannelLife.start .XSC_PROTOCOL_TCP).Fresh :=
    ⟨Exec.start_fresh _, .inl rfl, rfl, rfl⟩
  have hbegin : Reachable (lifeSystem sampleCfg .sample samplePb) NoLateBegin
      { ChannelLife.lost with est := true, cleanup := .notRun } :=
    .step (a := .begin_ (XmsgImChannel.begin_ 1 0 (.ping, []) none)) (.init hstart) trivial
      (LifeStep.begin_ _ _)
  have hlose : Reachable (lifeSystem sampleCfg .sample samplePb) NoLateBegin
      { ChannelLife.lost with cleanup := .notRun } :=
    .step (a := .lose) hbegin trivial (LifeStep.lose _ rfl)
  exact .step (a := .clean) hlose trivial (LifeStep.clean _ rfl rfl)

theorem no_transaction_parked_lost : ChannelLife.lost.NotParked :=
  (no_transaction_parked _ _ _ ChannelLife.lost_reachable).1

/-- The queued closure then parks its transaction, and `dida` leaves it there. -/
theorem lateBegin_parks_sample :
    ∃ s, Reachable (lifeSystem sampleCfg .sample samplePb) Always s ∧ ¬ s.NotParked ∧
      s.exec.ch.pending.length = 1 ∧
      ∀ now, s.dida sampleCfg .sample samplePb now = s.exec := by
  have hstep : LifeStep sampleCfg .sample samplePb ChannelLife.lost .runFuture _ :=
    LifeStep.runFuture _ rfl rfl (.futureBegin _ _ (by decide))
  have hlost : Reachable (lifeSystem sampleCfg .sample samplePb) Always ChannelLife.lost :=
    ChannelLife.lost_reachable.mono fun _ _ _ => trivial
  refine ⟨_, hlost.step (a := .runFuture) trivial hstep, ?_, rfl, fun _ => rfl⟩
  apply ChannelLife.lateBegin_parks hstep
  rintro (hest | hne)
  · cases hest
  · exact hne rfl

end XmsgImXsc
