/-
# XmsgImXsc.TidWrap -- when a drawn tid is still in use

`genTid` increments a 32-bit counter that started anywhere, and `futureBegin` puts the new
transaction into the table under the number without looking whether it is taken.  On a
WebSocket, UDP or HTTP channel no sweep ever ends a transaction the peer does not answer,
so an entry can wait until the counter comes round.

`AgedRun` is a run of a channel that records when each transaction was begun, counted in
drawn tids.  The drawn tid is a key of the table exactly if an outstanding transaction is
whole turns of the counter old.
-/
import XmsgImXsc.Link

namespace XmsgImXsc

open Lts

variable {D M : Type}

/-! ## Runs that record the age of transactions -/

/-- A run, and for each begun transaction the number of tids drawn up to its own. -/
structure AgedRun (M : Type) where
  exec : Exec M
  born : List (XmsgImTransInitiative M × Nat) := []

namespace AgedRun

/-- The births after an operation: a transaction is born with the draw of its tid. -/
def bornAfter (s : AgedRun M) : Act M → List (XmsgImTransInitiative M × Nat)
  | .futureBegin t => ((s.exec.ch.futureBegin t).2, s.exec.drawn.length + 1) :: s.born
  | _ => s.born

/-- No outstanding transaction is whole turns of the counter older than the tid drawn
next. -/
def NoneWrapped (s : AgedRun M) : Prop :=
  ∀ p ∈ s.born, p.1 ∈ s.exec.ch.pending → ¬2 ^ 32 ∣ s.exec.drawn.length + 1 - p.2

/-- The guard of the runs in which that is so whenever a transaction is begun. -/
def NoneWrappedAtBegin (s : AgedRun M) : Act M → Prop
  | .futureBegin _ => s.NoneWrapped
  | _ => True

end AgedRun

/-- The steps are those of the channel. -/
def agedSystem (K : XscProto) (pb : Protobuf D M) : System (AgedRun M) (Act M) where
  init s := s.exec.Fresh ∧ s.born = []
  step s a s' := Step K pb s.exec a s'.exec ∧ s'.born = s.bornAfter a

namespace AgedRun

variable {K : XscProto} {pb : Protobuf D M} {s s' : AgedRun M} {a : Act M} {t0 : UInt32}

/-- The tid of a transaction tells when it was begun, up to turns of the counter. -/
structure Inv (t0 : UInt32) (s : AgedRun M) : Prop where
  numbered : s.exec.Numbered t0
  begun : s.exec.begun = s.born.map Prod.fst
  stid : ∀ p ∈ s.born, p.2 ≤ s.exec.drawn.length ∧ p.1.stid = t0 + UInt32.ofNat p.2

theorem Inv.step (h : s.Inv t0) (hstep : (agedSystem K pb).step s a s') : s'.Inv t0 := by
  obtain ⟨hexec, hborn⟩ := hstep
  have hnumbered := h.numbered.step hexec
  by_cases ha : ∃ trans, a = .futureBegin trans
  · obtain ⟨trans, rfl⟩ := ha
    obtain ⟨exec', born'⟩ := s'
    have hexec' : exec' = s.exec.futureBegin trans := hexec.eq_futureBegin
    have hborn' : born' = ((s.exec.ch.futureBegin trans).2, s.exec.drawn.length + 1) :: s.born :=
      hborn
    subst hexec' hborn'
    refine ⟨hnumbered, ?_, ?_⟩
    · show _ :: s.exec.begun = _ :: s.born.map Prod.fst
      rw [h.begun]
    · intro p hp
      show p.2 ≤ s.exec.drawn.length + 1 ∧ _
      rcases List.mem_cons.mp hp with rfl | hp
      · exact ⟨Nat.le_refl _, h.numbered.draw.2⟩
      · exact ⟨Nat.le_succ_of_le (h.stid p hp).1, (h.stid p hp).2⟩
  · -- nothing is begun, and at most a tid is drawn
    have hborn' : s'.born = s.born := by
      rw [hborn]
      cases a with
      | futureBegin trans => exact absurd ⟨trans, rfl⟩ ha
      | _ => rfl
    have hframe : s'.exec.begun = s.exec.begun ∧
        s.exec.drawn.length ≤ s'.exec.drawn.length := by
      rcases hexec.cases_ with ⟨trans, rfl, -⟩ | ⟨ch, bs, -, heq⟩ | ⟨bs, rest, -, heq⟩ |
        heq | ⟨t, -, heq⟩
      · exact absurd ⟨trans, rfl⟩ ha
      · rw [heq, Exec.takeOut, Exec.enter_begun, Exec.enter_drawn]
        exact ⟨rfl, Nat.le_refl _⟩
      · rw [heq, Exec.enter_begun, Exec.enter_drawn]
        exact ⟨rfl, Nat.le_refl _⟩
      · rw [heq]
        exact ⟨rfl, Nat.le_succ _⟩
      · rw [heq]
        exact ⟨rfl, Nat.le_refl _⟩
    refine ⟨hnumbered, ?_, ?_⟩
    · rw [hframe.1, hborn', h.begun]
    · rw [hborn']
      intro p hp
      exact ⟨Nat.le_trans (h.stid p hp).1 hframe.2, (h.stid p hp).2⟩

theorem reachable_inv {G : AgedRun M → Act M → Prop} (h : Reachable (agedSystem K pb) G s) :
    ∃ t0, s.Inv t0 := by
  apply h.invariant (I := fun s => ∃ t0, s.Inv t0)
  · rintro s ⟨hfresh, hborn⟩
    refine ⟨s.exec.ch.tidSeq, ⟨?_, ?_, ?_⟩, ?_, ?_⟩
    · rw [hfresh.drawn]
      rfl
    · rw [hfresh.drawn]
      simp
    · rw [hfresh.begun, hfresh.drawn]
      exact List.Sublist.refl _
    · rw [hfresh.begun, hborn]
      rfl
    · rw [hborn]
      intro p hp
      simp at hp
  · rintro s a s' ⟨t0, hinv⟩ - hstep
    exact ⟨t0, hinv.step hstep⟩

/-- The channel of such a run is a channel of an ordinary run. -/
theorem reachable_exec {G : AgedRun M → Act M → Prop} (h : Reachable (agedSystem K pb) G s) :
    Reachable (execSystem K pb) Always s.exec := by
  apply h.project (fun s => s.exec)
  · intro s hinit
    exact hinit.1
  · intro s a s' _ _ hstep
    exact .inr ⟨a, trivial, hstep.1⟩

/-! ## When the drawn tid is a key of the table -/

theorem genTid_notMem_iff {G : AgedRun M → Act M → Prop}
    (h : Reachable (agedSystem K pb) G s) :
    s.exec.ch.genTid.2 ∉ s.exec.ch.transInit ↔ s.NoneWrapped := by
  obtain ⟨t0, hinv⟩ := reachable_inv h
  have hexec := XmsgImXsc.reachable_inv (reachable_exec h)
  have htid : s.exec.ch.genTid.2 = t0 + UInt32.ofNat (s.exec.drawn.length + 1) :=
    hinv.numbered.draw.2
  constructor
  · -- a transaction that is whole turns old has the drawn tid, and is found under it
    intro hnot p hp hpending hdvd
    obtain ⟨hle, hstid⟩ := hinv.stid p hp
    apply hnot
    have heq : p.1.stid = s.exec.ch.genTid.2 := by
      rw [hstid, htid, tid_eq_iff]
      omega
    have hlook := hexec.lookup_stid hpending
    rw [heq] at hlook
    exact AList.lookup_isSome.mp (by rw [hlook]; rfl)
  · -- the entry under the drawn tid was begun whole turns ago
    intro hnone hmem
    obtain ⟨t, hlook⟩ := Option.isSome_iff_exists.mp (AList.lookup_isSome.mpr hmem)
    have hpending : t ∈ s.exec.ch.pending := Tables.mem_values_iff.mpr ⟨_, hlook⟩
    have hbegun : t ∈ s.exec.begun :=
      hexec.books.split.mem_iff.mpr (List.mem_append_left _ hpending)
    rw [hinv.begun] at hbegun
    obtain ⟨p, hp, rfl⟩ := List.mem_map.mp hbegun
    obtain ⟨hle, hstid⟩ := hinv.stid p hp
    apply hnone p hp hpending
    have heq : t0 + UInt32.ofNat p.2 = t0 + UInt32.ofNat (s.exec.drawn.length + 1) := by
      rw [← hstid, ← htid]
      exact hexec.keyed _ _ hlook
    have hmod := (tid_eq_iff t0 _ _).mp heq
    omega

end AgedRun

/-- In every state a channel can reach, on every transport, the tid drawn next is no key of
the table exactly if no outstanding transaction was begun whole turns of the counter ago;
and in every run in which that is so at each begin, no begin drops a transaction. -/
theorem genTid_fresh_iff (K : XscProto) (pb : Protobuf D M) :
    (∀ s, Reachable (agedSystem K pb) Always s →
      (s.exec.ch.genTid.2 ∉ s.exec.ch.transInit ↔ s.NoneWrapped)) ∧
    ∀ s, Reachable (agedSystem K pb) AgedRun.NoneWrappedAtBegin s →
      s.exec.overwritten = [] ∧
        ∀ trans s', AgedRun.NoneWrappedAtBegin s (.futureBegin trans) →
          (agedSystem K pb).step s (.futureBegin trans) s' →
          s.exec.ch.genTid.2 ∉ s.exec.ch.transInit ∧ s'.exec.overwritten = [] := by
  refine ⟨fun s h => AgedRun.genTid_notMem_iff h, ?_⟩
  have hover (s : AgedRun M)
      (h : Reachable (agedSystem K pb) AgedRun.NoneWrappedAtBegin s) :
      s.exec.overwritten = [] := by
    suffices hexec : Reachable (execSystem K pb) FreshTid s.exec from reachable_overwritten hexec
    apply h.project (fun s => s.exec)
    · intro s hinit
      exact hinit.1
    · intro s a s' hr hguard hstep
      refine .inr ⟨a, ?_, hstep.1⟩
      cases a with
      | futureBegin trans => exact (AgedRun.genTid_notMem_iff hr).mpr hguard
      | _ => trivial
  intro s h
  refine ⟨hover s h, ?_⟩
  intro trans s' hguard hstep
  exact ⟨(AgedRun.genTid_notMem_iff h).mpr hguard, hover s' (h.step hguard hstep)⟩

/-! ## A transaction that is dropped

On a WebSocket channel one request is never answered, and every later request is answered
before the next one is made. -/

/-- The request number `n`, an object of its own. -/
def ping (n : Nat) : XmsgImTransInitiative SampleMsg :=
  XmsgImChannel.begin_ n 0 (.ping, []) none

/-- The END that answers a request. -/
def pong (dtid : UInt32) : XscProtoTransaction := { trans := .END, dtid := dtid }

/-- The channel after the unanswered request and `n` answered ones. -/
structure Exec.OneUnanswered (n : Nat) (e : Exec SampleMsg) : Prop where
  reachable : Reachable (execSystem .sample samplePb) Always e
  pro : e.ch.pro = .XSC_PROTOCOL_WEBSOCKET
  stack : e.stack = []
  tidSeq : e.ch.tidSeq = UInt32.ofNat (n + 1)
  waits : e.ch.transInit.lookup 1 = some { ping 1 with stid := 1 }
  begun : ∀ t ∈ e.begun, t.ptr ≤ n + 1
  invoked : ∀ i ∈ e.invoked, i.1.trans.ptr ≠ 1

/-- One more request is made and answered. -/
theorem Exec.OneUnanswered.next {n : Nat} {e : Exec SampleMsg} (h : e.OneUnanswered n)
    (hn : n + 1 < 2 ^ 32) : ∃ e', Exec.OneUnanswered (n + 1) e' := by
  have htid : e.ch.tidSeq + 1 = UInt32.ofNat (n + 2) := by
    rw [h.tidSeq, UInt32.ofNat_add (n + 1) 1]
    rfl
  have hne : (1 : UInt32) ≠ e.ch.tidSeq + 1 := by
    intro heq
    rw [htid] at heq
    have hmod := (UInt32.ofNat_eq_iff_mod_eq_toNat (n + 2) 1).mp heq.symm
    have hone : UInt32.toNat 1 = 1 := rfl
    omega
  -- one more transaction is begun, answered and called back, while the first one waits
  let asked := e.futureBegin (ping (n + 2))
  let trans : XmsgImTransInitiative SampleMsg := { ping (n + 2) with stid := e.ch.tidSeq + 1 }
  let pdu : XscProtoPdu := { transm := { trans := some (pong (e.ch.tidSeq + 1)) } }
  let b : Taken SampleMsg := ⟨trans, .byEnd pdu (pong (e.ch.tidSeq + 1))⟩
  have hasked : Step .sample samplePb e (.futureBegin (ping (n + 2))) asked := by
    apply Step.futureBegin
    intro hptr
    obtain ⟨t, ht, heq⟩ := List.mem_map.mp hptr
    have hle := h.begun t ht
    have hptr' : t.ptr = n + 2 := heq
    omega
  have hfound : asked.ch.transInit.lookup (e.ch.tidSeq + 1) = some trans :=
    AList.lookup_insert _
  let answered : Exec SampleMsg :=
    { asked with
      ch := { asked.ch with transInit := asked.ch.transInit.erase (e.ch.tidSeq + 1) }
      removed := b :: asked.removed
      invoked := (b, b.complete .sample samplePb) :: asked.invoked
      stack := [] :: asked.stack }
  have hanswered : asked.evnEnd .sample samplePb pdu (pong (e.ch.tidSeq + 1)) = answered := by
    unfold Exec.evnEnd XmsgImChannel.evnEnd
    rw [show (pong (e.ch.tidSeq + 1)).dtid = e.ch.tidSeq + 1 from rfl, hfound]
    rfl
  have hend : Step .sample samplePb asked (.evnEnd pdu (pong (e.ch.tidSeq + 1))) _ :=
    .evnEnd asked pdu _ rfl
  rw [hanswered] at hend
  have hreturn : Step .sample samplePb answered .cbReturn _ := .cbReturn answered rfl
  refine ⟨_, ((h.reachable.step trivial hasked).step trivial hend).step trivial hreturn, h.pro,
    h.stack, htid, ?_, ?_, ?_⟩
  · show ((e.ch.transInit.insert (e.ch.tidSeq + 1) trans).erase (e.ch.tidSeq + 1)).lookup 1 = _
    rw [AList.lookup_erase_ne hne, AList.lookup_insert_ne hne]
    exact h.waits
  · intro t ht
    rcases List.mem_cons.mp ht with rfl | ht
    · exact Nat.le_refl _
    · exact Nat.le_succ_of_le (h.begun t ht)
  · intro i hi
    rcases List.mem_cons.mp hi with rfl | hi
    · show n + 2 ≠ 1
      omega
    · exact h.invoked i hi

theorem Exec.oneUnanswered (n : Nat) (hn : n < 2 ^ 32) :
    ∃ e, Exec.OneUnanswered n e := by
  induction n with
  | zero =>
      refine ⟨(Exec.start .XSC_PROTOCOL_WEBSOCKET).futureBegin (ping 1), ?_, rfl, rfl, rfl, ?_,
        ?_, ?_⟩
      · refine .step (.init (Exec.start_fresh _)) trivial (.futureBegin _ _ ?_)
        exact List.not_mem_nil
      · exact AList.lookup_insert _
      · intro t ht
        rw [List.mem_singleton.mp ht]
        exact Nat.le_refl 1
      · intro i hi
        cases hi
  | succ n ih =>
      obtain ⟨e, he⟩ := ih (by omega)
      exact he.next hn

/-- After `2 ^ 32 - 1` answered requests the counter has come round to the tid of the request
that is still outstanding, and the next begin drops it. -/
theorem genTid_fresh_counterexample :
    ∃ e : Exec SampleMsg, Reachable (execSystem .sample samplePb) Always e ∧
      e.ch.pro = .XSC_PROTOCOL_WEBSOCKET ∧ e.stack = [] ∧
      e.ch.genTid.2 ∈ e.ch.transInit ∧ e.callbacks 1 = [] ∧
      ∀ trans, { ping 1 with stid := 1 } ∈ (e.futureBegin trans).overwritten := by
  obtain ⟨e, he⟩ := Exec.oneUnanswered (2 ^ 32 - 1) (by decide)
  have htid : e.ch.genTid.2 = 1 := by
    show e.ch.tidSeq + 1 = 1
    rw [he.tidSeq]
    rfl
  refine ⟨e, he.reachable, he.pro, he.stack, ?_, ?_, ?_⟩
  · rw [htid]
    exact AList.lookup_isSome.mp (by rw [he.waits]; rfl)
  · unfold Exec.callbacks
    rw [List.filter_eq_nil_iff.mpr]
    · rfl
    · intro i hi
      simpa using he.invoked i hi
  · intro trans
    show _ ∈ (e.ch.transInit.lookup e.ch.genTid.2).toList ++ e.overwritten
    rw [htid, he.waits]
    exact List.mem_cons_self

end XmsgImXsc
