/-
# XmsgImXsc.WebSocketDecode -- one read of complete frames

When a read holds complete frames and nothing else, `decode` hands their payloads to
`decodeFrameBinary` in order.  It consumes the whole read when all are accepted.  At the first
payload that is refused it returns -1, and nothing behind that frame is handed over.
-/
import XmsgImXsc.WebSocketSplit

namespace XmsgImXsc

open Scanning

variable {σ : Type} {mtu : Nat} {decodeFrameBinary : σ → Bytes → σ × Bool}

/-- What is handed over up to the first payload that is refused. -/
theorem handOver_append_refuse {pre post : List Bytes} {payload : Bytes} {s : σ}
    (hpre : (handOver decodeFrameBinary pre s).accepted = true)
    (hrefuse : (decodeFrameBinary (handOver decodeFrameBinary pre s).st payload).2 = false) :
    handOver decodeFrameBinary (pre ++ payload :: post) s =
      ⟨false, pre ++ [payload],
        (decodeFrameBinary (handOver decodeFrameBinary pre s).st payload).1⟩ := by
  rw [handOver_append hpre, handOver_refuse hrefuse]
  rfl

/-- `decode` on complete frames does what handing over their payloads does, and returns the
number of bytes or -1. -/
theorem decode_eq_handOver {fs : List ClientFrame} (hmtu : ∀ f ∈ fs, f.size ≤ mtu)
    (stale : Bytes) (s : σ) :
    ∃ r, XmsgImWebSocketChannel.decode mtu decodeFrameBinary (streamBytes fs) stale s = some r ∧
      r.frames = (handOver decodeFrameBinary (fs.map (·.payload)) s).frames ∧
      r.st = (handOver decodeFrameBinary (fs.map (·.payload)) s).st ∧
      r.ret = if (handOver decodeFrameBinary (fs.map (·.payload)) s).accepted then
        ((streamBytes fs).length : Int) else -1 := by
  have hnil : frameScan mtu [] = .more := rfl
  obtain ⟨hreads, -, hrest⟩ := drain_streamBytes decodeFrameBinary s hmtu hnil
  obtain ⟨r, hr, hdecode⟩ := decodeLoop_isDecode mtu decodeFrameBinary (streamBytes fs) stale 0 s
    (Nat.lt_succ_self (streamBytes fs).length)
  rw [List.append_nil] at hreads hrest
  refine ⟨r, hr, ?_, ?_, ?_⟩
  · rw [hdecode.frames, ← hreads]
    rfl
  · rw [hdecode.st, ← hreads]
    rfl
  · cases haccepted : (handOver decodeFrameBinary (fs.map (·.payload)) s).accepted with
    | true =>
        -- nothing is left of the read, so no length bytes are missing
        have hstop : (drain (frameScanner mtu) (onFrame decodeFrameBinary) (streamBytes fs) s).stop =
            .starved := by
          rw [← hreads] at haccepted
          exact of_decide_eq_true haccepted
        have hempty := hrest haccepted
        have hnot : ¬ Overrun mtu (drain (frameScanner mtu) (onFrame decodeFrameBinary)
            (streamBytes fs) s).rest stale := by
          rw [hempty]
          intro hover
          exact absurd hover.1 (by decide)
        obtain ⟨hret, -⟩ := hdecode.consumed hstop hnot
        rw [hret, hempty, if_pos rfl]
        simp
    | false =>
        have hstop : (drain (frameScanner mtu) (onFrame decodeFrameBinary) (streamBytes fs) s).stop ≠
            .starved := by
          rw [← hreads] at haccepted
          exact of_decide_eq_false haccepted
        rw [hdecode.rejected (.inl hstop)]
        rfl

/-- A read of complete frames within the mtu: `decode` hands their payloads over in order and
returns the number of bytes if all are accepted.  If one is refused, that one is the last that
is handed over, and -1 is returned. -/
theorem decode_streamBytes (mtu : Nat) (decodeFrameBinary : σ → Bytes → σ × Bool)
    (fs : List ClientFrame) (hmtu : ∀ f ∈ fs, f.size ≤ mtu) (stale : Bytes) (s : σ) :
    ∃ r, XmsgImWebSocketChannel.decode mtu decodeFrameBinary (streamBytes fs) stale s = some r ∧
      ((handOver decodeFrameBinary (fs.map (·.payload)) s).accepted = true →
        r.frames = fs.map (·.payload) ∧ r.ret = ((streamBytes fs).length : Int) ∧
          r.st = (handOver decodeFrameBinary (fs.map (·.payload)) s).st) ∧
      (∀ pre f post, fs = pre ++ f :: post →
        (handOver decodeFrameBinary (pre.map (·.payload)) s).accepted = true →
        (decodeFrameBinary (handOver decodeFrameBinary (pre.map (·.payload)) s).st
            f.payload).2 = false →
          r.frames = (pre ++ [f]).map (·.payload) ∧ r.ret = -1 ∧
            r.st = (decodeFrameBinary
              (handOver decodeFrameBinary (pre.map (·.payload)) s).st f.payload).1) := by
  obtain ⟨r, hr, hframes, hst, hret⟩ := decode_eq_handOver hmtu stale s
  refine ⟨r, hr, ?_, ?_⟩
  · intro haccepted
    refine ⟨hframes.trans (handOver_frames haccepted), ?_, hst⟩
    rw [hret, if_pos haccepted]
  · intro pre f post hfs hpre hrefuse
    -- `f` is the last payload that is handed over
    rw [hfs, List.map_append, List.map_cons, handOver_append_refuse hpre hrefuse]
      at hframes hst hret
    refine ⟨?_, hret, hst⟩
    rw [hframes, List.map_append]
    rfl

/-- The sample frame twice in one read, with its payload accepted both times, and refused the
second time. -/
theorem decode_streamBytes_sample :
    XmsgImWebSocketChannel.decode 10 (fun n _ => (n + 1, decide (n < 2)))
        (streamBytes [ClientFrame.sample, ClientFrame.sample]) [] 0 =
      some ⟨20, [[97, 98], [97, 98]], [], 2⟩ ∧
    ∃ r, XmsgImWebSocketChannel.decode 10 (fun n _ => (n + 1, decide (n < 1)))
        (streamBytes [ClientFrame.sample, ClientFrame.sample]) [] 0 = some r ∧
      r.frames = [[97, 98], [97, 98]] ∧ r.ret = -1 ∧ r.st = 2 := by
  have hmtu : ∀ f ∈ [ClientFrame.sample, ClientFrame.sample], f.size ≤ 10 := by
    simp [ClientFrame.size, ClientFrame.sample]
  refine ⟨by decide, ?_⟩
  obtain ⟨r, hr, -, hrefused⟩ := decode_streamBytes 10 (fun n _ => (n + 1, decide (n < 1)))
    [ClientFrame.sample, ClientFrame.sample] hmtu [] 0
  exact ⟨r, hr, hrefused [ClientFrame.sample] ClientFrame.sample [] rfl rfl rfl⟩

end XmsgImXsc
