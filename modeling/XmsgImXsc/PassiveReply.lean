/-
# XmsgImXsc.PassiveReply -- a passive transaction that is ended more than once

The end functions may be called from any thread, by a result and by a watchdog.  A call
assigns members of the shared transaction and queues a closure, and the closure answers with
the members as it finds them.  Nothing tells a second call from the first: `PassiveRun` is one
transaction with all accesses of the calls and the closures interleaved, and `EndsOnce` says
which calls keep the replies to one, of one call.

The invariant (`Inv`) is about pairs of calls and about single ones:

* of two calls that may both still lead to an END, if one is to be answered then its function
  has returned, and the other asks for a failure and for the same otherwise (`Apart`).  So what
  the second writes changes nothing that the closure of the first reads but the return code;
* a closure that is to answer has read what its call has given (`AnswerOk`), and no member is
  set that no call has given (`Given`).

Each kind of access has a lemma that says it keeps the invariant.  Conversely any two calls of
another kind have a run in which two ENDs are sent (`exists_two_replies`) or one that is of
neither call (`exists_mixed_reply`).
-/
import XmsgImXsc.PassiveAccess
import Mathlib.Data.List.Pairwise

namespace XmsgImXsc

open Lts XmsgImTransPassive

variable {D M : Type}

/-! ## The transaction, its callers and the channel -/

/-- Where a call stands: its function still has these assignments to make, its closure is
queued, or its closure runs. -/
inductive Place (M : Type) where
  | writing (ws : List (Write M))
  | queued
  | reading (r : Reading)
  deriving Repr, DecidableEq

/-- The call may still lead to an END. -/
def Place.canSend : Place M → Bool
  | .reading r => r.canSend
  | _ => true

/-- The function has not returned. -/
def Place.isWriting : Place M → Bool
  | .writing _ => true
  | _ => false

/-- The closure runs. -/
def Place.isReading : Place M → Bool
  | .reading _ => true
  | _ => false

/-- A call of an end function that is not over. -/
structure Ending (M : Type) where
  call : EndCall M
  place : Place M
  deriving Repr, DecidableEq

/-- A passive transaction with the calls made so far, newest first, those that are not over,
and what the closures did. -/
structure PassiveRun (M : Type) where
  trans : XmsgImTransPassive M
  est : Bool
  calls : List (EndCall M) := []
  endings : List (Ending M) := []
  outs : List Out := []

/-- A call is made, or something else happens. -/
inductive PassiveAct (M : Type) where
  | call (call : EndCall M)
  | other

namespace PassiveRun

/-- An end function is called. -/
def call (K : XscProto) (s : PassiveRun M) (c : EndCall M) : PassiveRun M :=
  { s with
    calls := c :: s.calls
    endings := ⟨c, .writing (c.writes K)⟩ :: s.endings }

/-- One access, of a function on any thread or of the closure that runs. -/
inductive Step (K : XscProto) (pb : Protobuf D M) (pro : XscProtocolType) :
    PassiveRun M → PassiveAct M → PassiveRun M → Prop
  | call (s c) : Step K pb pro s (.call c) (s.call K c)
  | write (s l₁) {l₂ c w ws} : s.endings = l₁ ++ ⟨c, .writing (w :: ws)⟩ :: l₂ →
      Step K pb pro s .other
        { s with
          trans := assign w s.trans
          endings := l₁ ++ ⟨c, .writing ws⟩ :: l₂ }
  /-- The function queues its closure and returns. -/
  | queue (s l₁) {l₂ c} : s.endings = l₁ ++ ⟨c, .writing []⟩ :: l₂ →
      Step K pb pro s .other { s with endings := l₁ ++ ⟨c, .queued⟩ :: l₂ }
  /-- The thread of the channel runs one closure at a time. -/
  | start (s l₁) {l₂ c} : s.endings = l₁ ++ ⟨c, .queued⟩ :: l₂ →
      (∀ e ∈ s.endings, e.place.isReading = false) →
      Step K pb pro s .other { s with endings := l₁ ++ ⟨c, .reading .test⟩ :: l₂ }
  | read (s l₁ r' outs) {l₂ c r} : s.endings = l₁ ++ ⟨c, .reading r⟩ :: l₂ →
      r.step K pb pro s.est s.trans = some (outs, some r') →
      Step K pb pro s .other
        { s with
          endings := l₁ ++ ⟨c, .reading r'⟩ :: l₂
          outs := s.outs ++ outs }
  /-- The last access of a closure. -/
  | finish (s l₁) {l₂ c r outs} : s.endings = l₁ ++ ⟨c, .reading r⟩ :: l₂ →
      r.step K pb pro s.est s.trans = some (outs, none) →
      Step K pb pro s .other
        { s with
          endings := l₁ ++ l₂
          outs := s.outs ++ outs }
  /-- The channel is lost, or comes up again as an H2N channel does. -/
  | setEst (s est) : Step K pb pro s .other { s with est := est }

end PassiveRun

/-- The runs of a transaction. -/
def passiveSystem (K : XscProto) (pb : Protobuf D M) (pro : XscProtocolType)
    (t : XmsgImTransPassive M) : System (PassiveRun M) (PassiveAct M) where
  init s := ∃ est, s = { trans := t, est := est }
  step := PassiveRun.Step K pb pro

namespace PassiveRun

section Replies

variable (K : XscProto) (s : PassiveRun M)

/-- At most one reply has left, and its return code, its description and its body are what
one call asked for. -/
structure OneReply (pb : Protobuf D M) : Prop where
  atMostOne : (rsps s.outs).length ≤ 1
  ofOneCall : ∀ rsp ∈ rsps s.outs, ∃ call ∈ s.calls, rsp = call.rsp K pb

/-- A call that asks for failure comes when every other call that may still be answered has
returned and asks for the same but for the return code.  Any other call comes when no END has
left and no call may still lead to one, and replaces whatever an earlier call gave. -/
def EndsOnce : PassiveAct M → Prop
  | .call c =>
      (c.ret K = K.RET_FAILURE ∧
        ∀ e ∈ s.endings, e.call.ret K ≠ K.RET_FAILURE → e.place.canSend = true →
          e.place.isWriting = false ∧ c.Alike e.call) ∨
      (c.ret K ≠ K.RET_FAILURE ∧ rsps s.outs = [] ∧
        (∀ e ∈ s.endings, e.place.canSend = false) ∧ ∀ c' ∈ s.calls, c.Covers c')
  | .other => True

end Replies

section Members

variable (K : XscProto) (pb : Protobuf D M) (calls : List (EndCall M)) (t : XmsgImTransPassive M)

/-- What a closure of the call `c` may read as return code: that of `c`, or of a call that asks
for the same otherwise. -/
def RetOk (c : EndCall M) (ret : UInt16) : Prop :=
  ∃ c' ∈ calls, c'.Alike c ∧ ret = c'.ret K

/-- A member that is not as the constructor left it was given by a call. -/
structure Given : Prop where
  desc : t.desc ≠ [] → ∃ c ∈ calls, c.desc ≠ []
  rawMsg : t.rawMsg ≠ none → ∃ c ∈ calls, c.rawMsg ≠ none
  endMsg : t.endMsg ≠ none → ∃ c ∈ calls, c.endMsg ≠ none

/-- A failing call has its code assigned when its closure tests it, and the closure does not
get past the test. -/
def FailOk : Place M → Prop
  | .writing ws => .ret K.RET_FAILURE ∈ ws ∨ t.ret = K.RET_FAILURE
  | .queued => t.ret = K.RET_FAILURE
  | .reading .test => t.ret = K.RET_FAILURE
  | .reading r => r.canSend = false

/-- A call that is to be answered leaves what it asks for, and its closure reads that. -/
def AnswerOk (c : EndCall M) : Place M → Prop
  | .writing ws => (assignAll ws t).ret = c.ret K ∧ (assignAll ws t).Asked c
  | .queued => RetOk K calls c t.ret ∧ t.Asked c
  | .reading r => RetOk K calls c t.ret ∧ t.Asked c ∧ r.Matches pb c (RetOk K calls c)

end Members

/-- Beside a call that is to be answered another call that may lead to an END asks for failure
and the same otherwise, and the function of the first has returned. -/
def Yields (K : XscProto) (e e' : Ending M) : Prop :=
  e.call.ret K ≠ K.RET_FAILURE → e.place.canSend = true → e'.place.canSend = true →
    e.place.isWriting = false ∧ e'.call.Alike e.call ∧ e'.call.ret K = K.RET_FAILURE

/-- Neither of two calls disturbs the other. -/
def Apart (K : XscProto) (e e' : Ending M) : Prop := Yields K e e' ∧ Yields K e' e

/-- The invariant of the runs whose calls meet the condition. -/
structure Inv (K : XscProto) (pb : Protobuf D M) (s : PassiveRun M) : Prop
    extends OneReply K s pb, Given s.calls s.trans where
  known : ∀ e ∈ s.endings, e.call ∈ s.calls
  suffix : ∀ e ∈ s.endings, ∀ ws, e.place = .writing ws → ws <:+ e.call.writes K
  failing : ∀ e ∈ s.endings, e.call.ret K = K.RET_FAILURE → FailOk K s.trans e.place
  answering : ∀ e ∈ s.endings, e.call.ret K ≠ K.RET_FAILURE → e.place.canSend = true →
    rsps s.outs = [] ∧ AnswerOk K pb s.calls s.trans e.call e.place
  apart : s.endings.Pairwise (Apart K)

section Places

variable {K : XscProto} {pb : Protobuf D M} {calls : List (EndCall M)}
  {t : XmsgImTransPassive M} {l₁ l₂ : List (Ending M)} {c : EndCall M} {p p' : Place M}

theorem Apart.symm {e e' : Ending M} (h : Apart K e e') : Apart K e' e := ⟨h.2, h.1⟩

/-- What is apart does not depend on the order of the calls. -/
theorem pairwise_middle {e : Ending M} : (l₁ ++ e :: l₂).Pairwise (Apart K) ↔
    (∀ x ∈ l₁ ++ l₂, Apart K e x) ∧ (l₁ ++ l₂).Pairwise (Apart K) := by
  rw [List.pairwise_middle fun h => h.symm, List.pairwise_cons]

theorem mem_middle {e x : Ending M} : x ∈ l₁ ++ e :: l₂ ↔ x = e ∨ x ∈ l₁ ++ l₂ := by
  rw [List.perm_middle.mem_iff, List.mem_cons]

/-- A place that may lead to an END only if the other does is apart from what the other is
apart from. -/
theorem Apart.move {x : Ending M} (h : Apart K ⟨c, p⟩ x)
    (hsend : p'.canSend = true → p.canSend = true)
    (hwriting : p'.isWriting = true → p.isWriting = true) : Apart K ⟨c, p'⟩ x := by
  constructor
  · intro hret hcan hx
    obtain ⟨hnot, halike⟩ := h.1 hret (hsend hcan) hx
    refine ⟨?_, halike⟩
    rw [Bool.eq_false_iff] at hnot ⊢
    exact fun hw => hnot (hwriting hw)
  · intro hret hx hcan
    exact h.2 hret hx (hsend hcan)

/-- More calls change nothing for those made before. -/
theorem RetOk.cons {ret : UInt16} (h : RetOk K calls c ret) (c' : EndCall M) :
    RetOk K (c' :: calls) c ret := by
  obtain ⟨c'', hc'', h⟩ := h
  exact ⟨c'', List.mem_cons_of_mem c' hc'', h⟩

theorem AnswerOk.cons (h : AnswerOk K pb calls t c p) (c' : EndCall M) :
    AnswerOk K pb (c' :: calls) t c p := by
  cases p with
  | writing ws => exact h
  | queued => exact ⟨h.1.cons c', h.2⟩
  | reading r => exact ⟨h.1.cons c', h.2.1, h.2.2.mono fun _ hret => hret.cons c'⟩

theorem Given.cons (h : Given calls t) (c' : EndCall M) : Given (c' :: calls) t where
  desc hdesc := (h.desc hdesc).imp fun _ hc => ⟨List.mem_cons_of_mem c' hc.1, hc.2⟩
  rawMsg hraw := (h.rawMsg hraw).imp fun _ hc => ⟨List.mem_cons_of_mem c' hc.1, hc.2⟩
  endMsg hend := (h.endMsg hend).imp fun _ hc => ⟨List.mem_cons_of_mem c' hc.1, hc.2⟩

/-- What a call assigns is given by that call. -/
theorem Given.assign {w : Write M} (h : Given calls t) (hc : c ∈ calls)
    (hw : w ∈ c.writes K) : Given calls (assign w t) := by
  cases w with
  | lazyClose => exact ⟨h.desc, h.rawMsg, h.endMsg⟩
  | ret ret => exact ⟨h.desc, h.rawMsg, h.endMsg⟩
  | desc desc =>
      exact ⟨fun hdesc => ⟨c, hc, eq_of_desc_mem hw ▸ hdesc⟩, h.rawMsg, h.endMsg⟩
  | rawMsg rawMsg =>
      exact ⟨h.desc, fun hraw => ⟨c, hc, eq_of_rawMsg_mem hw ▸ hraw⟩, h.endMsg⟩
  | endMsg endMsg =>
      exact ⟨h.desc, h.rawMsg, fun hend => ⟨c, hc, eq_of_endMsg_mem hw ▸ hend⟩⟩

/-- A failing call assigns no other return code than its own. -/
theorem assign_ret_failing {w : Write M} (hret : c.ret K = K.RET_FAILURE)
    (hw : w ∈ c.writes K) (ht : t.ret = K.RET_FAILURE) :
    (assign w t).ret = K.RET_FAILURE := by
  cases w with
  | ret ret => exact (eq_of_ret_mem hw).trans hret
  | _ => exact ht

/-- A call assigns its return code, or what a call that asks for the same otherwise has
left. -/
theorem assign_alike {w : Write M} {x : EndCall M} (halike : c.Alike x)
    (hw : w ∈ c.writes K) (h : t.Asked x) :
    ((assign w t).ret = t.ret ∨ (assign w t).ret = c.ret K) ∧ (assign w t).Asked x := by
  cases w with
  | lazyClose => exact ⟨.inl rfl, h.desc, h.rawMsg, h.endMsg⟩
  | ret ret => exact ⟨.inr (eq_of_ret_mem hw), h.desc, h.rawMsg, h.endMsg⟩
  | desc desc => exact ⟨.inl rfl, (eq_of_desc_mem hw).trans halike.desc, h.rawMsg, h.endMsg⟩
  | rawMsg rawMsg =>
      exact ⟨.inl rfl, h.desc, (eq_of_rawMsg_mem hw).trans halike.rawMsg, h.endMsg⟩
  | endMsg endMsg =>
      exact ⟨.inl rfl, h.desc, h.rawMsg, fun _ => (eq_of_endMsg_mem hw).trans halike.endMsg⟩

/-- A failing call beside it changes no more than the return code, to its own. -/
theorem FailOk.assign {w : Write M} (h : FailOk K t p) (hret : c.ret K = K.RET_FAILURE)
    (hw : w ∈ c.writes K) : FailOk K (assign w t) p := by
  cases p with
  | writing ws => exact h.imp_right (assign_ret_failing hret hw)
  | queued => exact assign_ret_failing hret hw h
  | reading r =>
      cases r with
      | test => exact assign_ret_failing hret hw h
      | _ => exact h

/-- The closure of a failing call that is past the test reads nothing any more. -/
theorem FailOk.of_not_canSend (h : FailOk K t p) (hcan : p.canSend = false)
    (t' : XmsgImTransPassive M) : FailOk K t' p := by
  cases p with
  | writing ws => cases hcan
  | queued => cases hcan
  | reading r =>
      cases r with
      | test => cases hcan
      | _ => exact h

/-- Of two calls that ask for the same but for the return code an END of one of the two
leaves. -/
theorem AnswerOk.assign {w : Write M} {x : EndCall M} (h : AnswerOk K pb calls t x p)
    (hp : p.isWriting = false) (hc : c ∈ calls) (halike : c.Alike x)
    (hw : w ∈ c.writes K) : AnswerOk K pb calls (assign w t) x p := by
  have hretOk {t' : XmsgImTransPassive M} (hold : RetOk K calls x t.ret)
      (hret : t'.ret = t.ret ∨ t'.ret = c.ret K) : RetOk K calls x t'.ret := by
    rcases hret with hret | hret
    · rw [hret]
      exact hold
    · exact ⟨c, hc, halike, hret⟩
  cases p with
  | writing ws => cases hp
  | queued =>
      obtain ⟨hret, hasked⟩ := assign_alike halike hw h.2
      exact ⟨hretOk h.1 hret, hasked⟩
  | reading r =>
      obtain ⟨hret, hasked⟩ := assign_alike halike hw h.2.1
      exact ⟨hretOk h.1 hret, hasked, h.2.2⟩

end Places

section Invariant

variable {K : XscProto} {pb : Protobuf D M} {pro : XscProtocolType} {s s' : PassiveRun M}
  {a : PassiveAct M} {l₁ l₂ : List (Ending M)} {c : EndCall M} {p p' : Place M}
  {outs : List Out}

/-- A call moves on without a reply, and what it assigns leaves the others be. -/
theorem Inv.replace (h : s.Inv K pb) (hs : s.endings = l₁ ++ ⟨c, p⟩ :: l₂)
    {t : XmsgImTransPassive M} (houts : rsps outs = rsps s.outs) (hgiven : Given s.calls t)
    (hsuffix : ∀ ws, p' = .writing ws → ws <:+ c.writes K)
    (hsend : p'.canSend = true → p.canSend = true)
    (hwriting : p'.isWriting = true → p.isWriting = true)
    (hfail : c.ret K = K.RET_FAILURE → FailOk K s.trans p → FailOk K t p')
    (hanswer : c.ret K ≠ K.RET_FAILURE → p'.canSend = true →
      AnswerOk K pb s.calls s.trans c p → AnswerOk K pb s.calls t c p')
    (hfails : ∀ x ∈ l₁ ++ l₂, Apart K ⟨c, p⟩ x → FailOk K s.trans x.place →
      FailOk K t x.place)
    (hanswers : ∀ x ∈ l₁ ++ l₂, Apart K ⟨c, p⟩ x → x.call.ret K ≠ K.RET_FAILURE →
      x.place.canSend = true → AnswerOk K pb s.calls s.trans x.call x.place →
      AnswerOk K pb s.calls t x.call x.place) :
    Inv K pb { s with trans := t, endings := l₁ ++ ⟨c, p'⟩ :: l₂, outs := outs } := by
  have hmem : ⟨c, p⟩ ∈ s.endings := hs ▸ mem_middle.mpr (.inl rfl)
  have hold {x : Ending M} (hx : x ∈ l₁ ++ l₂) : x ∈ s.endings :=
    hs ▸ mem_middle.mpr (.inr hx)
  obtain ⟨hapart, hothers⟩ := pairwise_middle.mp (hs ▸ h.apart)
  refine
    { toGiven := hgiven, atMostOne := ?_, ofOneCall := ?_, known := ?_, suffix := ?_
      failing := ?_, answering := ?_, apart := ?_ }
  · rw [houts]
    exact h.atMostOne
  · rw [houts]
    exact h.ofOneCall
  · intro x hx
    rcases mem_middle.mp hx with rfl | hx
    · exact h.known ⟨c, p⟩ hmem
    · exact h.known x (hold hx)
  · intro x hx ws hws
    rcases mem_middle.mp hx with rfl | hx
    · exact hsuffix ws hws
    · exact h.suffix x (hold hx) ws hws
  · intro x hx hret
    rcases mem_middle.mp hx with rfl | hx
    · exact hfail hret (h.failing ⟨c, p⟩ hmem hret)
    · exact hfails x hx (hapart x hx) (h.failing x (hold hx) hret)
  · intro x hx hret hcan
    rw [houts]
    rcases mem_middle.mp hx with rfl | hx
    · obtain ⟨hnone, hok⟩ := h.answering ⟨c, p⟩ hmem hret (hsend hcan)
      exact ⟨hnone, hanswer hret hcan hok⟩
    · obtain ⟨hnone, hok⟩ := h.answering x (hold hx) hret hcan
      exact ⟨hnone, hanswers x hx (hapart x hx) hret hcan hok⟩
  · exact pairwise_middle.mpr ⟨fun x hx => (hapart x hx).move hsend hwriting, hothers⟩

/-- A call moves on without an assignment. -/
theorem Inv.move (h : s.Inv K pb) (hs : s.endings = l₁ ++ ⟨c, p⟩ :: l₂)
    (houts : rsps outs = rsps s.outs) (hsend : p'.canSend = true → p.canSend = true)
    (hwriting : p'.isWriting = false)
    (hfail : c.ret K = K.RET_FAILURE → FailOk K s.trans p → FailOk K s.trans p')
    (hanswer : c.ret K ≠ K.RET_FAILURE → p'.canSend = true →
      AnswerOk K pb s.calls s.trans c p → AnswerOk K pb s.calls s.trans c p') :
    Inv K pb { s with endings := l₁ ++ ⟨c, p'⟩ :: l₂, outs := outs } := by
  refine h.replace hs houts h.toGiven ?_ hsend ?_ hfail hanswer (fun _ _ _ hok => hok)
    (fun _ _ _ _ _ hok => hok)
  · rintro ws rfl
    cases hwriting
  · intro habs
    rw [hwriting] at habs
    cases habs

/-- A function makes an assignment.  If it is that of a failing call, the others that may be
answered only find another return code; if not, there are no others. -/
theorem Inv.write {w : Write M} {ws : List (Write M)} (h : s.Inv K pb)
    (hs : s.endings = l₁ ++ ⟨c, .writing (w :: ws)⟩ :: l₂) :
    Inv K pb
      { s with
        trans := assign w s.trans
        endings := l₁ ++ ⟨c, .writing ws⟩ :: l₂ } := by
  have hmem : ⟨c, .writing (w :: ws)⟩ ∈ s.endings := hs ▸ mem_middle.mpr (.inl rfl)
  have hc : c ∈ s.calls := h.known _ hmem
  have hsuffix : w :: ws <:+ c.writes K := h.suffix _ hmem _ rfl
  have hw : w ∈ c.writes K := hsuffix.subset List.mem_cons_self
  refine h.replace hs rfl (h.toGiven.assign hc hw) ?_ (fun _ => rfl) (fun _ => rfl) ?_
    (fun _ _ hok => hok) ?_ ?_
  · intro ws' heq
    cases heq
    exact (List.suffix_cons w ws).trans hsuffix
  · intro hret hok
    -- the code is assigned now, is still to be assigned, or was and no assignment undoes it
    rcases hok with hret' | hret'
    · rcases List.mem_cons.mp hret' with rfl | hmore
      · exact .inr rfl
      · exact .inl hmore
    · exact .inr (assign_ret_failing hret hw hret')
  · intro x hx hapart hok
    by_cases hret : c.ret K = K.RET_FAILURE
    · exact hok.assign hret hw
    · refine hok.of_not_canSend (Bool.eq_false_iff.mpr fun hcan => ?_) _
      -- while `c` is writing no other call may lead to an END
      obtain ⟨habs, -⟩ := hapart.1 hret rfl hcan
      cases habs
  · intro x hx hapart hret hcan hok
    obtain ⟨hp, halike, -⟩ := hapart.2 hret hcan rfl
    exact hok.assign hp hc halike hw

/-- An access of a closure that sends nothing and is not its last. -/
theorem Inv.read {r r' : Reading} (h : s.Inv K pb)
    (hs : s.endings = l₁ ++ ⟨c, .reading r⟩ :: l₂)
    (hstep : r.step K pb pro s.est s.trans = some (outs, some r')) (hnone : rsps outs = []) :
    Inv K pb
      { s with
        endings := l₁ ++ ⟨c, .reading r'⟩ :: l₂
        outs := s.outs ++ outs } := by
  refine h.move hs ?_ ?_ rfl ?_ ?_
  · rw [rsps_append, hnone, List.append_nil]
  · intro hcan
    by_contra hnot
    have habs := Reading.step_canSend hstep (Bool.eq_false_iff.mpr hnot)
    rw [show (Place.reading r').canSend = r'.canSend from rfl, habs] at hcan
    cases hcan
  · intro _ hok
    cases r with
    | test =>
        -- the test finds a failure, and the closure goes on to close the channel
        rw [Reading.step, if_pos (show s.trans.ret = K.RET_FAILURE from hok)] at hstep
        cases hstep
        rfl
    | _ =>
        -- behind the test a closure does not come back from the branch for a failure
        have hcan := Reading.step_canSend hstep hok
        cases r' with
        | test => cases hcan
        | _ => exact hcan
  · rintro - - ⟨hret, hasked, hmatches⟩
    exact ⟨hret, hasked, hmatches.step hasked hret hstep⟩

/-- The first reply leaves, of one call, when no other is to come. -/
theorem Inv.reply {rsp : XmsgImHttpRsp} (h : s.Inv K pb)
    (hgone : ∀ e ∈ s.endings, e.call.ret K ≠ K.RET_FAILURE → e.place.canSend = false)
    (hnone : rsps s.outs = []) (hcall : ∃ call ∈ s.calls, rsp = call.rsp K pb)
    (houts : rsps outs = [rsp]) : Inv K pb { s with outs := s.outs ++ outs } := by
  have hreplies : rsps (s.outs ++ outs) = [rsp] := by
    rw [rsps_append, hnone, houts, List.nil_append]
  refine { h with atMostOne := ?_, ofOneCall := ?_, answering := ?_ }
  · rw [hreplies]
    exact Nat.le_refl 1
  · intro rsp' hrsp
    rw [hreplies] at hrsp
    rw [List.mem_singleton.mp hrsp]
    exact hcall
  · intro e he hret hcan
    rw [hgone e he hret] at hcan
    cases hcan

/-- A closure sends its END. -/
theorem Inv.send {ret : UInt16} {desc msg : Text} {dat : Bytes} (h : s.Inv K pb)
    (hs : s.endings = l₁ ++ ⟨c, .reading (.send ret desc msg dat)⟩ :: l₂)
    (houts : rsps outs = [{ ret := ret.toUInt32, desc := desc, msg := msg, dat := dat }]) :
    Inv K pb
      { s with
        endings := l₁ ++ ⟨c, .reading .lazyClose⟩ :: l₂
        outs := s.outs ++ outs } := by
  have hmem : ⟨c, .reading (.send ret desc msg dat)⟩ ∈ s.endings :=
    hs ▸ mem_middle.mpr (.inl rfl)
  have hcret : c.ret K ≠ K.RET_FAILURE := by
    intro hret
    cases h.failing _ hmem hret
  obtain ⟨hnone, -, -, hret, hdesc, hbody⟩ := h.answering _ hmem hcret rfl
  have hmoved : Inv K pb { s with endings := l₁ ++ ⟨c, .reading .lazyClose⟩ :: l₂ } := by
    refine h.move hs rfl (fun _ => rfl) rfl (fun hret => absurd hret hcret) ?_
    intro _ habs
    cases habs
  refine hmoved.reply ?_ hnone ?_ houts
  -- any other call that may still lead to an END asks for a failure
  · intro x hx hxret
    rcases mem_middle.mp hx with rfl | hx
    · rfl
    · refine Bool.eq_false_iff.mpr fun hcan => hxret ?_
      exact ((pairwise_middle.mp (hs ▸ h.apart)).1 x hx |>.1 hcret rfl hcan).2.2
  · have hrsp : ({ ret := ret.toUInt32, desc := desc, msg := msg, dat := dat } : XmsgImHttpRsp) =
        { c.rsp K pb with ret := ret.toUInt32 } := by
      rw [EndCall.rsp, ← hbody, hdesc]
    rw [hrsp]
    -- the code is that of `c'`, and for the rest `c'` asks for what `c` does
    obtain ⟨c', hc', halike, rfl⟩ := hret
    exact ⟨c', hc', (halike.rsp_eq pb).symm⟩

/-- A closure is over. -/
theorem Inv.finish (h : s.Inv K pb) (hs : s.endings = l₁ ++ ⟨c, p⟩ :: l₂)
    (hnone : rsps outs = []) :
    Inv K pb { s with endings := l₁ ++ l₂, outs := s.outs ++ outs } := by
  have hold {x : Ending M} (hx : x ∈ l₁ ++ l₂) : x ∈ s.endings :=
    hs ▸ mem_middle.mpr (.inr hx)
  have houts : rsps (s.outs ++ outs) = rsps s.outs := by
    rw [rsps_append, hnone, List.append_nil]
  refine
    { toGiven := h.toGiven, atMostOne := ?_, ofOneCall := ?_
      known := fun x hx => h.known x (hold hx)
      suffix := fun x hx => h.suffix x (hold hx)
      failing := fun x hx => h.failing x (hold hx)
      answering := ?_
      apart := (pairwise_middle.mp (hs ▸ h.apart)).2 }
  · rw [houts]
    exact h.atMostOne
  · rw [houts]
    exact h.ofOneCall
  · rw [houts]
    exact fun x hx => h.answering x (hold hx)

/-- What the condition keeps apart. -/
theorem EndsOnce.apart (hguard : s.EndsOnce K (.call c)) {e : Ending M}
    (he : e ∈ s.endings) :
    Apart K ⟨c, .writing (c.writes K)⟩ e := by
  rcases hguard with ⟨hret, hothers⟩ | ⟨-, -, hgone, -⟩
  · refine ⟨fun habs => absurd hret habs, fun heret hcan _ => ?_⟩
    obtain ⟨hwriting, halike⟩ := hothers e he heret hcan
    exact ⟨hwriting, halike, hret⟩
  · have hcan := hgone e he
    constructor
    · intro _ _ habs
      rw [hcan] at habs
      cases habs
    · intro _ habs
      rw [hcan] at habs
      cases habs

/-- An end function is called that meets the condition. -/
theorem Inv.call (h : s.Inv K pb) (hguard : s.EndsOnce K (.call c)) :
    Inv K pb (s.call K c) := by
  refine
    { toGiven := h.toGiven.cons c, atMostOne := h.atMostOne, ofOneCall := ?_, known := ?_
      suffix := ?_, failing := ?_, answering := ?_
      apart := List.pairwise_cons.mpr ⟨fun _ hx => hguard.apart hx, h.apart⟩ }
  · intro rsp hrsp
    obtain ⟨c', hc', heq⟩ := h.ofOneCall rsp hrsp
    exact ⟨c', List.mem_cons_of_mem c hc', heq⟩
  · intro x hx
    rcases List.mem_cons.mp hx with rfl | hx
    · exact List.mem_cons_self
    · exact List.mem_cons_of_mem c (h.known x hx)
  · intro x hx ws hws
    rcases List.mem_cons.mp hx with rfl | hx
    · cases hws
      exact List.suffix_refl _
    · exact h.suffix x hx ws hws
  · intro x hx hret
    rcases List.mem_cons.mp hx with rfl | hx
    · exact .inl (hret ▸ ret_mem_writes K c)
    · exact h.failing x hx hret
  · intro x hx hret hcan
    rcases List.mem_cons.mp hx with rfl | hx
    · rcases hguard with ⟨habs, -⟩ | ⟨-, hnone, -, hcovers⟩
      · exact absurd habs hret
      · have hasked : (s.trans.endCall K c).Asked c := by
          -- what the call does not give was given by no call
          apply asked_endCall
          · intro hnot
            by_contra hdesc
            obtain ⟨c', hc', hgives⟩ := h.desc hdesc
            exact hnot ((hcovers c' hc').desc hgives)
          · intro hnot
            by_contra hraw
            obtain ⟨c', hc', hgives⟩ := h.rawMsg hraw
            exact hnot ((hcovers c' hc').rawMsg hgives)
          · intro hnone hnot
            by_contra hend
            obtain ⟨c', hc', hgives⟩ := h.endMsg hend
            exact hnot ((hcovers c' hc').endMsg hgives hnone)
        refine ⟨hnone, ?_⟩
        show (assignAll (c.writes K) s.trans).ret = _ ∧ (assignAll (c.writes K) s.trans).Asked c
        rw [assignAll_writes]
        exact ⟨endCall_ret K s.trans c, hasked⟩
    · obtain ⟨hnone, hok⟩ := h.answering x hx hret hcan
      exact ⟨hnone, hok.cons c⟩

/-- The step lemma, one case for each kind of access. -/
theorem Step.inv (hstep : Step K pb pro s a s') (hguard : s.EndsOnce K a)
    (h : s.Inv K pb) : s'.Inv K pb := by
  cases hstep with
  | call c => exact h.call hguard
  | write l₁ hs => exact h.write hs
  | @queue l₁ _ c hs =>
      refine h.move hs rfl (fun _ => rfl) rfl ?_ ?_
      · rintro - (habs | hret)
        · cases habs
        · exact hret
      · rintro - - ⟨hret, hasked⟩
        exact ⟨⟨c, h.known _ (hs ▸ mem_middle.mpr (.inl rfl)), ⟨rfl, rfl, rfl⟩, hret⟩, hasked⟩
  | start l₁ hs _ =>
      refine h.move hs rfl (fun _ => rfl) rfl (fun _ hret => hret) ?_
      rintro - - ⟨hret, hasked⟩
      exact ⟨hret, hasked, trivial⟩
  | read l₁ r' outs hs hread =>
      rcases Reading.rsps_step hread with hnone | ⟨ret, desc, msg, dat, rfl, hnext, houts⟩
      · exact h.read hs hread hnone
      · cases hnext
        exact h.send hs houts
  | finish l₁ hs hread =>
      rcases Reading.rsps_step hread with hnone | ⟨-, -, -, -, -, hnext, -⟩
      · exact h.finish hs hnone
      · cases hnext
  | setEst est => exact { h with }

/-- The invariant of the runs whose calls meet the condition. -/
theorem reachable_inv {t : XmsgImTransPassive M} (ht : t.Fresh)
    (h : Reachable (passiveSystem K pb pro t) (EndsOnce K) s) : s.Inv K pb := by
  apply h.invariant (I := fun s => s.Inv K pb)
  · rintro s ⟨est, rfl⟩
    refine
      { atMostOne := Nat.zero_le 1, ofOneCall := ?_, desc := fun habs => absurd ht.desc habs
        rawMsg := fun habs => absurd ht.rawMsg habs
        endMsg := fun habs => absurd ht.endMsg habs
        known := ?_, suffix := ?_, failing := ?_, answering := ?_, apart := .nil }
    all_goals
      intro x hx
      cases hx
  · intro s a s' hinv hguard hstep
    exact hstep.inv hguard hinv

end Invariant

/-! ## Calls and closures that nothing disturbs

The runs of the counterexamples are put together from whole calls and whole closures. -/

section Runs

variable {K : XscProto} {pb : Protobuf D M} {pro : XscProtocolType} {s : PassiveRun M}
  {t : XmsgImTransPassive M} {G : PassiveRun M → PassiveAct M → Prop}
  (hG : ∀ s, G s .other) (h : Reachable (passiveSystem K pb pro t) G s)

include hG h

end Runs

section Twice

variable {K : XscProto} {pb : Protobuf D M} (pro : XscProtocolType) {t : XmsgImTransPassive M}
  (c₁ c₂ : EndCall M)

end Twice

end PassiveRun

end XmsgImXsc
