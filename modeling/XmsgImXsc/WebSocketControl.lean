/-
# XmsgImXsc.WebSocketControl -- control frames between data frames

`decode` ignores PING and PONG frames: it steps over the two bytes of their header, and reads
their mask and payload as if another frame began there.  A sequence with control frames is
decoded as it is without them exactly when its bytes can also be cut into data frames with
the same payloads and pairs of bytes that look like the header of an ignored frame.

`CutAs` is such a cut, of any bytes.  What `decode` does to a buffer and how the buffer can be
cut are the same thing (`decode_iff_cutAs`), because a piece is scanned in the same way
whatever follows it.  When mask and payload of every control frame look like further headers
(`ControlFrame.SteppedOver`) the sequence itself is a cut (`cutAs_itemBytes`), so this is a
sufficient condition on each control frame by itself.
-/
import XmsgImXsc.WebSocketDataFrame

namespace XmsgImXsc

open Scanning

variable {σ : Type}

/-! ## What a client sends -/

/-- A complete masked PING or PONG frame. -/
structure ControlFrame where
  fst : UInt8
  mask : Bytes
  payload : Bytes
  fin : fst &&& 0x80 ≠ 0
  opcode : fst &&& 0x0F = WS_FRAME_PING ∨ fst &&& 0x0F = WS_FRAME_PONG
  mask_length : mask.length = 4
  fits : payload.length ≤ 125

/-- The control frame on the wire: its length fits into seven bits. -/
def ControlFrame.bytes (c : ControlFrame) : Bytes :=
  c.fst :: (LenForm.bit7.bytes c.payload.length ++ (c.mask ++ applyMask c.mask c.payload))

/-- What a client sends. -/
inductive ClientItem where
  | data (f : DataFrame)
  | control (c : ControlFrame)

/-- The frame on the wire. -/
def ClientItem.bytes : ClientItem → Bytes
  | .data f => f.bytes
  | .control c => c.bytes

/-- The data frame, if it is one. -/
def ClientItem.data? : ClientItem → Option DataFrame
  | .data f => some f
  | .control _ => none

/-- The bytes of a sequence of frames. -/
def itemBytes (items : List ClientItem) : Bytes := (items.map (·.bytes)).flatten

/-- The sequence with the control frames removed. -/
def dataFrames (items : List ClientItem) : List DataFrame := items.filterMap ClientItem.data?

/-- The bytes of a sequence of data frames. -/
def dataBytes (fs : List DataFrame) : Bytes := (fs.map (·.bytes)).flatten

/-! ## Cutting the bytes as `decode` does

A piece is what one round of the loop takes off the front of the buffer. -/

/-- Two bytes that `decode` steps over. -/
structure SkipPair where
  b0 : UInt8
  b1 : UInt8
  fin : b0 &&& 0x80 ≠ 0
  masked : b1 &&& 0x80 ≠ 0
  opcode : b0 &&& 0x0F = WS_FRAME_CONTINUATION ∨ b0 &&& 0x0F = WS_FRAME_PING ∨
    b0 &&& 0x0F = WS_FRAME_PONG

/-- What `decode` takes off the front of its buffer. -/
inductive Piece where
  | skip (p : SkipPair)
  | data (f : DataFrame)

namespace Piece

/-- The bytes of the piece. -/
def bytes : Piece → Bytes
  | .skip p => [p.b0, p.b1]
  | .data f => f.bytes

/-- The payload of the piece, if it is a data frame. -/
def payload? : Piece → Option Bytes
  | .skip _ => none
  | .data f => some f.payload

/-- The piece is taken on a channel with this mtu. -/
def Fits (mtu : Nat) : Piece → Prop
  | .skip _ => True
  | .data f => f.Taken mtu

variable {mtu : Nat}

/-- A piece is scanned as its payload, whatever follows it. -/
theorem frameScan_bytes {p : Piece} (h : p.Fits mtu) (r : Bytes) :
    frameScan mtu (p.bytes ++ r) = .item p.payload? p.bytes.length := by
  cases p with
  | data f =>
      have htaken : f.Taken mtu := h
      show frameScan mtu (f.bytes ++ r) = .item (some f.payload) f.bytes.length
      rw [f.frameScan_bytes, if_pos htaken]
  | skip p =>
      have hhead : frameHead (byteAt (p.b0 :: p.b1 :: r) 0) (byteAt (p.b0 :: p.b1 :: r) 1) =
          .skip := frameHead_skip_iff.mpr ⟨p.fin, p.masked, p.opcode⟩
      have hlength : (p.b0 :: p.b1 :: r).length = r.length + 2 := rfl
      show frameScan mtu (p.b0 :: p.b1 :: r) = .item none 2
      unfold frameScan
      rw [if_neg (by omega), hhead]

/-- Whatever is scanned is a piece. -/
theorem exists_of_frameScan {dat : Bytes} {a : Option Bytes} {n : Nat}
    (h : frameScan mtu dat = .item a n) :
    ∃ p : Piece, p.Fits mtu ∧ p.payload? = a ∧ dat = p.bytes ++ dat.drop n := by
  cases a with
  | some payload =>
      obtain ⟨f, htaken, hpayload, -, hdat⟩ := exists_dataFrame h
      exact ⟨.data f, htaken, congrArg some hpayload, hdat⟩
  | none =>
      obtain ⟨hlen, ⟨hhead, -, rfl⟩ | ⟨-, habs, -⟩⟩ := frameScan_item h
      · match dat, hlen with
        | b0 :: b1 :: t, _ =>
            obtain ⟨hfin, hmasked, hop⟩ := frameHead_skip_iff.mp hhead
            exact ⟨.skip ⟨b0, b1, hfin, hmasked, hop⟩, trivial, rfl, rfl⟩
      · cases habs

end Piece

/-- The bytes of a sequence of pieces. -/
def pieceBytes (pieces : List Piece) : Bytes := (pieces.map (·.bytes)).flatten

@[simp] theorem pieceBytes_cons (p : Piece) (pieces : List Piece) :
    pieceBytes (p :: pieces) = p.bytes ++ pieceBytes pieces := rfl

/-- A buffer begins with two bytes that are rejected, or with the header of a data frame over
the mtu; where length bytes are missing, the stale ones are read. -/
def RejectedHead (mtu : Nat) (rest stale : Bytes) : Prop :=
  2 ≤ rest.length ∧ (frameHead (byteAt rest 0) (byteAt rest 1) = .reject ∨
    (frameHead (byteAt rest 0) (byteAt rest 1) = .data ∧ mtu < frameSize (rest ++ stale)))

/-- The bytes can be cut into data frames with the payloads `ps` and pairs that are stepped
over, to the end of the bytes or, if a frame is to be rejected, up to a rejected header.
After a payload that is refused they need not be cut. -/
def CutAs (mtu : Nat) (dat stale : Bytes) (ps : List Bytes) (stop : Stop) : Prop :=
  ∃ pieces rest, (∀ p ∈ pieces, Piece.Fits mtu p) ∧ dat = pieceBytes pieces ++ rest ∧
    payloads (pieces.map (·.payload?)) = ps ∧ (stop = .starved → rest = []) ∧
      (stop = .malformed → RejectedHead mtu rest stale)

/-- Where the code overruns the scanner waits. -/
theorem Overrun.scan_more {mtu : Nat} {rest stale : Bytes} (h : Overrun mtu rest stale) :
    frameScan mtu rest = .more := by
  obtain ⟨hlen, hshort, hhead, -⟩ := h
  unfold frameScan
  rw [if_neg (by omega), hhead]
  exact if_pos hshort

/-- A header is rejected when the scanner rejects it, or when it is read past the end. -/
theorem rejectedHead_iff {mtu : Nat} {rest stale : Bytes} :
    RejectedHead mtu rest stale ↔ frameScan mtu rest = .bad ∨ Overrun mtu rest stale := by
  unfold RejectedHead Overrun frameScan
  by_cases hlen : rest.length < 2
  · rw [if_pos hlen]
    constructor
    · rintro ⟨habs, -⟩
      omega
    · rintro (habs | ⟨habs, -⟩)
      · cases habs
      · omega
  · rw [if_neg hlen]
    cases hhead : frameHead (byteAt rest 0) (byteAt rest 1) with
    | reject => simp [Nat.le_of_not_lt hlen]
    | skip => simp
    | data =>
        by_cases hshort : rest.length < headLength rest
        · simp [hshort]
        · have hsize : frameSize (rest ++ stale) = frameSize rest :=
            frameSize_append stale (by omega) (by omega)
          by_cases hmtu : mtu < frameSize rest
          · simp [hshort, hsize, hmtu, Nat.le_of_not_lt hlen]
          · by_cases hfull : rest.length < frameSize rest <;>
              simp [hshort, hsize, hmtu, hfull]

section Drain

variable (mtu : Nat) (decodeFrameBinary : σ → Bytes → σ × Bool)

/-- What is drained is cut into pieces. -/
theorem exists_pieces (dat : Bytes) (s : σ) : ∃ pieces, (∀ p ∈ pieces, Piece.Fits mtu p) ∧
    dat = pieceBytes pieces ++ (drain (frameScanner mtu) (onFrame decodeFrameBinary) dat s).rest ∧
    pieces.map (·.payload?) =
      (drain (frameScanner mtu) (onFrame decodeFrameBinary) dat s).items := by
  have hnone : ∀ p ∈ ([] : List Piece), Piece.Fits mtu p := by simp
  induction dat, s using drain.induct (frameScanner mtu) (onFrame decodeFrameBinary) with
  | case1 dat s hscan =>
      rw [drain_more _ _ hscan]
      exact ⟨[], hnone, rfl, rfl⟩
  | case2 dat s hscan =>
      rw [drain_bad _ _ hscan]
      exact ⟨[], hnone, rfl, rfl⟩
  | case3 dat s a n hscan haccept ih =>
      obtain ⟨p, hp, rfl, hdat⟩ := Piece.exists_of_frameScan hscan
      obtain ⟨pieces, hfits, hrest, hitems⟩ := ih
      rw [drain_accept _ _ hscan haccept]
      refine ⟨p :: pieces, List.forall_mem_cons.mpr ⟨hp, hfits⟩, ?_, congrArg (_ :: ·) hitems⟩
      rw [pieceBytes_cons, List.append_assoc, Drained.prepend_rest, ← hrest]
      exact hdat
  | case4 dat s a n hscan hrefuse =>
      obtain ⟨p, hp, rfl, hdat⟩ := Piece.exists_of_frameScan hscan
      rw [drain_refuse _ _ hscan (by simpa using hrefuse)]
      refine ⟨[p], List.forall_mem_cons.mpr ⟨hp, hnone⟩, ?_, rfl⟩
      rw [pieceBytes_cons, List.append_assoc]
      exact hdat

/-- What is drained was handed over, and refused at most at the end. -/
theorem handOver_drain (dat : Bytes) (s : σ) :
    handOver decodeFrameBinary
        (payloads (drain (frameScanner mtu) (onFrame decodeFrameBinary) dat s).items) s =
      ⟨(drain (frameScanner mtu) (onFrame decodeFrameBinary) dat s).stop ≠ .refused,
        payloads (drain (frameScanner mtu) (onFrame decodeFrameBinary) dat s).items,
        (drain (frameScanner mtu) (onFrame decodeFrameBinary) dat s).st⟩ := by
  induction dat, s using drain.induct (frameScanner mtu) (onFrame decodeFrameBinary) with
  | case1 dat s hscan =>
      rw [drain_more _ _ hscan]
      rfl
  | case2 dat s hscan =>
      rw [drain_bad _ _ hscan]
      rfl
  | case3 dat s a n hscan haccept ih =>
      rw [drain_accept _ _ hscan haccept, Drained.prepend_items, Drained.prepend_stop,
        Drained.prepend_st]
      cases a with
      | none => exact ih
      | some payload =>
          exact (handOver_accept haccept).trans (congrArg (Reads.prepend [payload]) ih)
  | case4 dat s a n hscan hrefuse =>
      have hrefuse : (onFrame decodeFrameBinary s a).2 = false := by simpa using hrefuse
      rw [drain_refuse _ _ hscan hrefuse]
      cases a with
      | none => cases hrefuse
      | some payload => exact handOver_refuse hrefuse

variable {mtu}

/-- Draining pieces hands their payloads over. -/
theorem drain_pieces {pieces : List Piece} (hfits : ∀ p ∈ pieces, Piece.Fits mtu p)
    (rest : Bytes) (s : σ) :
    let d := drain (frameScanner mtu) (onFrame decodeFrameBinary) (pieceBytes pieces ++ rest) s
    let ho := handOver decodeFrameBinary (payloads (pieces.map (·.payload?))) s
    (ho.accepted = true →
        d = (drain (frameScanner mtu) (onFrame decodeFrameBinary) rest ho.st).prepend
          (pieces.map (·.payload?))) ∧
      (ho.accepted = false → d.stop = .refused ∧ payloads d.items = ho.frames) := by
  induction pieces generalizing s with
  | nil => exact ⟨fun _ => rfl, fun habs => by cases habs⟩
  | cons p pieces ih =>
      obtain ⟨hp, hpieces⟩ := List.forall_mem_cons.mp hfits
      intro d ho
      have hscan : (frameScanner mtu).scan (pieceBytes (p :: pieces) ++ rest) =
          .item p.payload? p.bytes.length := by
        rw [pieceBytes_cons, List.append_assoc]
        exact Piece.frameScan_bytes hp _
      have hdrop : (pieceBytes (p :: pieces) ++ rest).drop p.bytes.length =
          pieceBytes pieces ++ rest := by
        rw [pieceBytes_cons, List.append_assoc, List.drop_left]
      have hstep (haccept : (onFrame decodeFrameBinary s p.payload?).2 = true) :
          d = (drain (frameScanner mtu) (onFrame decodeFrameBinary) (pieceBytes pieces ++ rest)
            (onFrame decodeFrameBinary s p.payload?).1).prepend [p.payload?] := by
        show drain _ _ _ s = _
        rw [drain_accept _ _ hscan haccept, hdrop]
      cases p with
      | skip p =>
          obtain ⟨haccepted, hrefused⟩ := ih hpieces s
          rw [hstep rfl]
          refine ⟨fun h => congrArg (Drained.prepend [none]) (haccepted h), fun h => ?_⟩
          exact hrefused h
      | data f =>
          cases haccept : (decodeFrameBinary s f.payload).2 with
          | true =>
              obtain ⟨haccepted, hrefused⟩ := ih hpieces (decodeFrameBinary s f.payload).1
              have hho : ho = (handOver decodeFrameBinary (payloads (pieces.map (·.payload?)))
                  (decodeFrameBinary s f.payload).1).prepend [f.payload] := handOver_accept haccept
              rw [hstep haccept, hho]
              refine ⟨fun h => congrArg (Drained.prepend [some f.payload]) (haccepted h),
                fun h => ?_⟩
              obtain ⟨hstop, hframes⟩ := hrefused h
              exact ⟨hstop, congrArg (f.payload :: ·) hframes⟩
          | false =>
              have hho : ho = ⟨false, [f.payload], (decodeFrameBinary s f.payload).1⟩ :=
                handOver_refuse haccept
              have hd : d = ⟨[some f.payload], pieceBytes pieces ++ rest, .refused,
                  (decodeFrameBinary s f.payload).1⟩ := by
                show drain _ _ _ s = _
                rw [drain_refuse _ _ hscan haccept, hdrop]
                rfl
              rw [hho, hd]
              exact ⟨fun habs => (by cases habs), fun _ => ⟨rfl, rfl⟩⟩

section CutAs

variable {dat stale : Bytes} {ps : List Bytes} {stop : Stop} {s : σ} {r : FrameDecode σ}

/-- What was decoded was cut into what was handed over, up to where it stopped. -/
theorem cutAs_of_isDecode
    (hdecode : IsDecode mtu stale 0 dat.length
      (drain (frameScanner mtu) (onFrame decodeFrameBinary) dat s) r)
    (hstop : (handOver decodeFrameBinary r.frames s).accepted = decide (stop ≠ .refused))
    (hret : r.ret = if stop = .starved then (dat.length : Int) else -1) :
    CutAs mtu dat stale r.frames stop := by
  obtain ⟨pieces, hfits, hdat, hitems⟩ := exists_pieces mtu decodeFrameBinary dat s
  have hho := handOver_drain mtu decodeFrameBinary dat s
  rw [← hdecode.frames] at hho
  have hbad := drain_malformed_rest (frameScanner mtu) (onFrame decodeFrameBinary) (b := dat)
    (s := s)
  generalize drain (frameScanner mtu) (onFrame decodeFrameBinary) dat s = d at *
  have hlen := congrArg List.length hdat
  rw [List.length_append] at hlen
  refine ⟨pieces, d.rest, hfits, hdat, ?_, ?_, ?_⟩
  · rw [hitems, ← hdecode.frames]
  · rintro rfl
    rw [if_pos rfl] at hret
    -- a count is returned, so nothing was rejected, and it leaves no byte
    by_cases hreject : d.stop ≠ .starved ∨ Overrun mtu d.rest stale
    · rw [hdecode.rejected hreject] at hret
      omega
    · obtain ⟨hstarved, hnot⟩ := not_or.mp hreject
      obtain ⟨hconsumed, -⟩ := hdecode.consumed (not_not.mp hstarved) hnot
      rw [hret] at hconsumed
      apply List.length_eq_zero_iff.mp
      omega
  · rintro rfl
    rw [if_neg (by decide)] at hret
    apply rejectedHead_iff.mpr
    cases hd : d.stop with
    | starved =>
        right
        by_contra hnot
        obtain ⟨hconsumed, -⟩ := hdecode.consumed hd hnot
        omega
    | malformed => exact .inl (hbad hd)
    | refused =>
        rw [hho, hd] at hstop
        cases hstop

/-- The pieces in front of bytes of which nothing is scanned are all that is handed over. -/
theorem IsDecode.frames_pieces {used len : Nat} {pieces : List Piece}
    {d : Drained UInt8 (Option Bytes) σ}
    (h : IsDecode mtu stale used len (d.prepend (pieces.map (·.payload?))) r)
    (hd : d.items = []) : r.frames = payloads (pieces.map (·.payload?)) := by
  rw [h.frames, Drained.prepend_items, hd, List.append_nil]

/-- What can be cut that way is decoded that way. -/
theorem CutAs.isDecode (h : CutAs mtu dat stale ps stop)
    (hps : (handOver decodeFrameBinary ps s).frames = ps)
    (hstop : (handOver decodeFrameBinary ps s).accepted = decide (stop ≠ .refused))
    (hdecode : IsDecode mtu stale 0 dat.length
      (drain (frameScanner mtu) (onFrame decodeFrameBinary) dat s) r) :
    r.frames = ps ∧ r.ret = if stop = .starved then (dat.length : Int) else -1 := by
  obtain ⟨pieces, rest, hfits, hdat, hpayloads, hwhole, hrejected⟩ := h
  obtain ⟨haccepted, hrefused⟩ := drain_pieces decodeFrameBinary hfits rest s
  rw [hpayloads, ← hdat] at haccepted hrefused
  cases stop with
  | refused =>
      obtain ⟨hd, hframes⟩ := hrefused hstop
      refine ⟨?_, ?_⟩
      · rw [hdecode.frames, hframes, hps]
      · rw [if_neg (by decide)]
        exact hdecode.rejected (.inl (by rw [hd]; decide))
  | starved =>
      have hd := haccepted hstop
      have hmore : (frameScanner mtu).scan [] = .more := rfl
      rw [hwhole rfl, drain_more _ _ hmore] at hd
      rw [hd] at hdecode
      refine ⟨(hdecode.frames_pieces rfl).trans hpayloads, ?_⟩
      have hnot : ¬ Overrun mtu [] stale := fun hover => absurd hover.1 (by decide)
      obtain ⟨hret, -⟩ := hdecode.consumed rfl hnot
      rw [hret, if_pos rfl]
      simp
  | malformed =>
      have hd := haccepted hstop
      rw [if_neg (by decide)]
      -- the header is rejected as it stands, or with the stale bytes behind it
      rcases rejectedHead_iff.mp (hrejected rfl) with hscan | hover
      · have hbad : (frameScanner mtu).scan rest = .bad := hscan
        rw [drain_bad _ _ hbad] at hd
        rw [hd] at hdecode
        refine ⟨(hdecode.frames_pieces rfl).trans hpayloads, ?_⟩
        exact hdecode.rejected (.inl Stop.noConfusion)
      · have hmore : (frameScanner mtu).scan rest = .more := hover.scan_more
        rw [drain_more _ _ hmore] at hd
        rw [hd] at hdecode
        refine ⟨(hdecode.frames_pieces rfl).trans hpayloads, ?_⟩
        exact hdecode.rejected (.inr hover)

/-- `decode` hands the payloads `ps` over and accepts the whole buffer, or rejects it, exactly
when the buffer can be cut that way. -/
theorem decode_iff_cutAs (hps : (handOver decodeFrameBinary ps s).frames = ps)
    (hstop : (handOver decodeFrameBinary ps s).accepted = decide (stop ≠ .refused)) :
    (∃ r, XmsgImWebSocketChannel.decode mtu decodeFrameBinary dat stale s = some r ∧
        r.frames = ps ∧ r.ret = if stop = .starved then (dat.length : Int) else -1) ↔
      CutAs mtu dat stale ps stop := by
  obtain ⟨r, hr, hdecode⟩ := decodeLoop_isDecode mtu decodeFrameBinary dat stale 0 s
    (Nat.lt_succ_self dat.length)
  constructor
  · rintro ⟨r', hr', rfl, hret⟩
    cases hr.symm.trans hr'
    exact cutAs_of_isDecode decodeFrameBinary hdecode hstop hret
  · intro hcut
    exact ⟨r, hr, hcut.isDecode decodeFrameBinary hps hstop hdecode⟩

end CutAs

end Drain

/-! ## Sequences with control frames

`dataOutcome` is what the data frames come to by themselves, and the bytes with the control
frames are to come to the same. -/

/-- What the data frames alone lead to: the payloads that are handed over, and whether the end
is reached, a payload is refused or a frame is not taken. -/
def dataOutcome (mtu : Nat) (decodeFrameBinary : σ → Bytes → σ × Bool) :
    List DataFrame → σ → List Bytes × Stop
  | [], _ => ([], .starved)
  | f :: fs, s =>
      if f.Taken mtu then
        let r := decodeFrameBinary s f.payload
        if r.2 then
          let o := dataOutcome mtu decodeFrameBinary fs r.1
          (f.payload :: o.1, o.2)
        else ([f.payload], .refused)
      else ([], .malformed)

/-- The first two bytes of a control frame. -/
def ControlFrame.head (c : ControlFrame) : SkipPair where
  b0 := c.fst
  b1 := UInt8.ofNat (128 + c.payload.length)
  fin := c.fin
  masked := by
    have hall : ∀ n : Fin 126, UInt8.ofNat (128 + n.val) &&& 0x80 ≠ 0 := by decide
    exact hall ⟨c.payload.length, Nat.lt_succ_of_le c.fits⟩
  opcode := .inr c.opcode

/-- Mask and payload of the control frame are pairs that are stepped over. -/
def ControlFrame.SteppedOver (c : ControlFrame) : Prop :=
  ∃ pairs : List SkipPair, c.mask ++ applyMask c.mask c.payload =
    pieceBytes (pairs.map .skip)

section Outcome

variable {mtu : Nat} {decodeFrameBinary : σ → Bytes → σ × Bool}

section Cons

variable {f : DataFrame} {fs : List DataFrame} {s : σ}

theorem dataOutcome_accept (htaken : f.Taken mtu) (h : (decodeFrameBinary s f.payload).2 = true) :
    dataOutcome mtu decodeFrameBinary (f :: fs) s =
      (f.payload :: (dataOutcome mtu decodeFrameBinary fs (decodeFrameBinary s f.payload).1).1,
        (dataOutcome mtu decodeFrameBinary fs (decodeFrameBinary s f.payload).1).2) := by
  rw [dataOutcome, if_pos htaken]
  exact if_pos h

theorem dataOutcome_refuse (htaken : f.Taken mtu)
    (h : (decodeFrameBinary s f.payload).2 = false) :
    dataOutcome mtu decodeFrameBinary (f :: fs) s = ([f.payload], .refused) := by
  rw [dataOutcome, if_pos htaken]
  exact if_neg (by rw [h]; decide)

theorem dataOutcome_not_taken (hnot : ¬ f.Taken mtu) :
    dataOutcome mtu decodeFrameBinary (f :: fs) s = ([], .malformed) :=
  if_neg hnot

end Cons

variable (mtu decodeFrameBinary)

/-- The outcome has the payloads that are handed over, and the verdict on the last. -/
theorem dataOutcome_handOver (fs : List DataFrame) (s : σ) :
    (handOver decodeFrameBinary (dataOutcome mtu decodeFrameBinary fs s).1 s).frames =
        (dataOutcome mtu decodeFrameBinary fs s).1 ∧
      (handOver decodeFrameBinary (dataOutcome mtu decodeFrameBinary fs s).1 s).accepted =
        decide ((dataOutcome mtu decodeFrameBinary fs s).2 ≠ .refused) := by
  induction fs generalizing s with
  | nil => exact ⟨rfl, rfl⟩
  | cons f fs ih =>
      by_cases htaken : f.Taken mtu
      · cases haccept : (decodeFrameBinary s f.payload).2 with
        | true =>
            obtain ⟨hframes, haccepted⟩ := ih (decodeFrameBinary s f.payload).1
            rw [dataOutcome_accept htaken haccept, handOver_accept haccept]
            exact ⟨congrArg (f.payload :: ·) hframes, haccepted⟩
        | false =>
            rw [dataOutcome_refuse htaken haccept, handOver_refuse haccept]
            exact ⟨rfl, rfl⟩
      · rw [dataOutcome_not_taken htaken]
        exact ⟨rfl, rfl⟩

variable {mtu decodeFrameBinary}

/-- When the end is reached, all payloads were handed over. -/
theorem dataOutcome_starved {fs : List DataFrame} {s : σ}
    (h : (dataOutcome mtu decodeFrameBinary fs s).2 = .starved) :
    (dataOutcome mtu decodeFrameBinary fs s).1 = fs.map (·.payload) := by
  induction fs generalizing s with
  | nil => rfl
  | cons f fs ih =>
      by_cases htaken : f.Taken mtu
      · cases haccept : (decodeFrameBinary s f.payload).2 with
        | true =>
            rw [dataOutcome_accept htaken haccept] at h ⊢
            exact congrArg (f.payload :: ·) (ih h)
        | false =>
            rw [dataOutcome_refuse htaken haccept] at h
            cases h
      · rw [dataOutcome_not_taken htaken] at h
        cases h

/-- Put pieces in front of a cut. -/
theorem CutAs.prepend {dat stale : Bytes} {ps : List Bytes} {stop : Stop}
    (h : CutAs mtu dat stale ps stop) {pieces : List Piece}
    (hfits : ∀ p ∈ pieces, Piece.Fits mtu p) :
    CutAs mtu (pieceBytes pieces ++ dat) stale (payloads (pieces.map (·.payload?)) ++ ps) stop := by
  obtain ⟨pieces', rest, hfits', rfl, rfl, hwhole, hrejected⟩ := h
  refine ⟨pieces ++ pieces', rest, ?_, ?_, ?_, hwhole, hrejected⟩
  · intro p hp
    rcases List.mem_append.mp hp with hp | hp
    · exact hfits p hp
    · exact hfits' p hp
  · unfold pieceBytes
    rw [List.map_append, List.flatten_append, List.append_assoc]
  · unfold payloads
    rw [List.map_append, List.filterMap_append]

/-- A data frame in front of a cut. -/
theorem CutAs.cons_data {dat stale : Bytes} (f : DataFrame) {fs : List DataFrame} {s : σ}
    (hrest : ∀ s, CutAs mtu dat stale (dataOutcome mtu decodeFrameBinary fs s).1
      (dataOutcome mtu decodeFrameBinary fs s).2) :
    CutAs mtu (f.bytes ++ dat) stale (dataOutcome mtu decodeFrameBinary (f :: fs) s).1
      (dataOutcome mtu decodeFrameBinary (f :: fs) s).2 := by
  by_cases htaken : f.Taken mtu
  · have hfits : ∀ p ∈ [Piece.data f], Piece.Fits mtu p := by
      intro p hp
      rw [List.mem_singleton.mp hp]
      exact htaken
    have hbytes (dat : Bytes) : pieceBytes [.data f] ++ dat = f.bytes ++ dat := by
      rw [pieceBytes_cons, List.append_assoc]
      rfl
    cases haccept : (decodeFrameBinary s f.payload).2 with
    | true =>
        have hcut := (hrest (decodeFrameBinary s f.payload).1).prepend hfits
        rw [hbytes] at hcut
        rw [dataOutcome_accept htaken haccept]
        exact hcut
    | false =>
        rw [dataOutcome_refuse htaken haccept]
        exact ⟨[.data f], dat, hfits, (hbytes dat).symm, rfl, Stop.noConfusion, Stop.noConfusion⟩
  · rw [dataOutcome_not_taken htaken]
    refine ⟨[], f.bytes ++ dat, by simp, rfl, rfl, Stop.noConfusion, ?_⟩
    intro _
    apply rejectedHead_iff.mpr
    rw [f.frameScan_bytes, if_neg htaken]
    exact .inl rfl

/-- A control frame that is stepped over, in front of a cut. -/
theorem CutAs.cons_control {dat stale : Bytes} {ps : List Bytes} {stop : Stop}
    (h : CutAs mtu dat stale ps stop) {c : ControlFrame} (hc : c.SteppedOver) :
    CutAs mtu (c.bytes ++ dat) stale ps stop := by
  obtain ⟨pairs, hpairs⟩ := hc
  have hskip : ∀ q ∈ .skip c.head :: pairs.map Piece.skip, Piece.Fits mtu q := by
    simp [Piece.Fits]
  have hbytes : pieceBytes (.skip c.head :: pairs.map .skip) = c.bytes := by
    rw [pieceBytes_cons, ← hpairs]
    rfl
  have hnone : payloads ((.skip c.head :: pairs.map Piece.skip).map (·.payload?)) = [] := by
    simp [payloads, Piece.payload?]
  have hcut := h.prepend hskip
  rw [hbytes, hnone] at hcut
  exact hcut

/-- A sequence whose control frames are stepped over can be cut as its data frames are
decoded. -/
theorem cutAs_itemBytes (mtu : Nat) (decodeFrameBinary : σ → Bytes → σ × Bool)
    {items : List ClientItem} (stale : Bytes) (hcontrol : ∀ c, .control c ∈ items → c.SteppedOver)
    (s : σ) : CutAs mtu (itemBytes items) stale
      (dataOutcome mtu decodeFrameBinary (dataFrames items) s).1
      (dataOutcome mtu decodeFrameBinary (dataFrames items) s).2 := by
  induction items generalizing s with
  | nil => exact ⟨[], [], by simp, rfl, rfl, fun _ => rfl, Stop.noConfusion⟩
  | cons item items ih =>
      have hrest := ih fun c hc => hcontrol c (List.mem_cons_of_mem item hc)
      cases item with
      | control c => exact (hrest s).cons_control (hcontrol c List.mem_cons_self)
      | data f => exact CutAs.cons_data f hrest

end Outcome

/-- `decode` hands over the same payloads with and without the control frames and gives the
same verdict.  When it accepts, it has handed over the payloads of all data frames in order and
consumed everything. -/
def Undisturbed (mtu : Nat) (decodeFrameBinary : σ → Bytes → σ × Bool)
    (items : List ClientItem) (stale : Bytes) (s : σ) : Prop :=
  ∃ r r₀, XmsgImWebSocketChannel.decode mtu decodeFrameBinary (itemBytes items) stale s = some r ∧
    XmsgImWebSocketChannel.decode mtu decodeFrameBinary (dataBytes (dataFrames items)) stale s =
      some r₀ ∧
    r.frames = r₀.frames ∧
    ((r.ret = -1 ∧ r₀.ret = -1) ∨
      (r.ret = (itemBytes items).length ∧ r₀.ret = (dataBytes (dataFrames items)).length ∧
        r.frames = (dataFrames items).map (·.payload)))

/-- The bytes of the sequence can be cut, other than it was sent, into data frames that lead
to what those of the sequence lead to, and pairs that are stepped over. -/
def Recut (mtu : Nat) (decodeFrameBinary : σ → Bytes → σ × Bool) (items : List ClientItem)
    (stale : Bytes) (s : σ) : Prop :=
  CutAs mtu (itemBytes items) stale (dataOutcome mtu decodeFrameBinary (dataFrames items) s).1
    (dataOutcome mtu decodeFrameBinary (dataFrames items) s).2

/-- Without control frames. -/
theorem decode_dataBytes (mtu : Nat) (decodeFrameBinary : σ → Bytes → σ × Bool)
    (fs : List DataFrame) (stale : Bytes) (s : σ) :
    ∃ r, XmsgImWebSocketChannel.decode mtu decodeFrameBinary (dataBytes fs) stale s = some r ∧
      r.frames = (dataOutcome mtu decodeFrameBinary fs s).1 ∧
      r.ret = if (dataOutcome mtu decodeFrameBinary fs s).2 = .starved then
        ((dataBytes fs).length : Int) else -1 := by
  obtain ⟨hps, hstop⟩ := dataOutcome_handOver mtu decodeFrameBinary fs s
  apply (decode_iff_cutAs decodeFrameBinary hps hstop).mpr
  have hcontrol : ∀ c, .control c ∈ fs.map ClientItem.data → c.SteppedOver := by
    intro c hc
    obtain ⟨f, -, habs⟩ := List.mem_map.mp hc
    cases habs
  have hcut := cutAs_itemBytes mtu decodeFrameBinary stale hcontrol s
  have hbytes : itemBytes (fs.map .data) = dataBytes fs := by
    unfold itemBytes dataBytes
    rw [List.map_map]
    rfl
  have hframes : dataFrames (fs.map .data) = fs := by
    unfold dataFrames
    rw [List.filterMap_map]
    exact List.filterMap_some
  rw [hbytes, hframes] at hcut
  exact hcut

/-- Control frames between data frames do not disturb them exactly when the bytes can be cut
again.  It is enough that the mask and the payload of every control frame are stepped over. -/
theorem decode_undisturbed_iff (mtu : Nat) (decodeFrameBinary : σ → Bytes → σ × Bool)
    (items : List ClientItem) (stale : Bytes) (s : σ) :
    (Undisturbed mtu decodeFrameBinary items stale s ↔
        Recut mtu decodeFrameBinary items stale s) ∧
      ((∀ c, .control c ∈ items → c.SteppedOver) → Recut mtu decodeFrameBinary items stale s) := by
  obtain ⟨hps, hstop⟩ := dataOutcome_handOver mtu decodeFrameBinary (dataFrames items) s
  obtain ⟨r₀, hr₀, hframes₀, hret₀⟩ := decode_dataBytes mtu decodeFrameBinary (dataFrames items)
    stale s
  refine ⟨?_, fun h => cutAs_itemBytes mtu decodeFrameBinary stale h s⟩
  unfold Recut
  rw [← decode_iff_cutAs decodeFrameBinary hps hstop]
  constructor
  · rintro ⟨r, r', hr, hr', hframes, hverdict⟩
    rw [hr₀] at hr'
    cases hr'
    refine ⟨r, hr, hframes.trans hframes₀, ?_⟩
    by_cases hstarved : (dataOutcome mtu decodeFrameBinary (dataFrames items) s).2 = .starved
    · rw [if_pos hstarved] at hret₀ ⊢
      rcases hverdict with ⟨-, habs⟩ | ⟨hret, -, -⟩
      · omega
      · exact hret
    · rw [if_neg hstarved] at hret₀ ⊢
      rcases hverdict with ⟨hret, -⟩ | ⟨-, habs, -⟩
      · exact hret
      · omega
  · rintro ⟨r, hr, hframes, hret⟩
    refine ⟨r, r₀, hr, hr₀, hframes.trans hframes₀.symm, ?_⟩
    by_cases hstarved : (dataOutcome mtu decodeFrameBinary (dataFrames items) s).2 = .starved
    · rw [if_pos hstarved] at hret₀ hret
      exact .inr ⟨hret, hret₀, hframes.trans (dataOutcome_starved hstarved)⟩
    · rw [if_neg hstarved] at hret₀ hret
      exact .inl ⟨hret, hret₀⟩

/-- A PING without a payload. -/
def ControlFrame.sample (mask : Bytes) (h : mask.length = 4) : ControlFrame where
  fst := 0x89
  mask := mask
  payload := []
  fin := by decide
  opcode := by decide
  mask_length := h
  fits := by decide

/-- The payload `ab` as text. -/
def DataFrame.sample : DataFrame where
  fst := 0x81
  form := .bit7
  mask := [5, 6, 7, 8]
  payload := [97, 98]
  fin := by decide
  opcode := by decide
  mask_length := rfl
  fits := by decide

/-- A PING in front of a data frame: the first byte of its mask is taken for the header of a
frame without FIN. -/
theorem decode_ping_disturbs :
    (XmsgImWebSocketChannel.decode 100 (fun (_ : Unit) _ => ((), true))
        (itemBytes [.control (.sample [1, 2, 3, 4] rfl), .data .sample]) [] ()).map
          (fun r => (r.ret, r.frames)) = some (-1, []) ∧
      (XmsgImWebSocketChannel.decode 100 (fun (_ : Unit) _ => ((), true))
        (dataBytes [.sample]) [] ()).map (fun r => (r.ret, r.frames)) = some (8, [[97, 98]]) ∧
      ¬ Undisturbed 100 (fun (_ : Unit) _ => ((), true))
        [.control (.sample [1, 2, 3, 4] rfl), .data .sample] [] () := by
  have hwith : (XmsgImWebSocketChannel.decode 100 (fun (_ : Unit) _ => ((), true))
      (itemBytes [.control (.sample [1, 2, 3, 4] rfl), .data .sample]) [] ()).map
        (fun r => (r.ret, r.frames)) = some (-1, []) := by decide
  have hwithout : (XmsgImWebSocketChannel.decode 100 (fun (_ : Unit) _ => ((), true))
      (dataBytes [.sample]) [] ()).map (fun r => (r.ret, r.frames)) = some (8, [[97, 98]]) := by
    decide
  refine ⟨hwith, hwithout, ?_⟩
  rintro ⟨r, r₀, hr, hr₀, hframes, -⟩
  have hdata : dataFrames [.control (.sample [1, 2, 3, 4] rfl), .data .sample] = [.sample] := rfl
  rw [hdata] at hr₀
  rw [hr] at hwith
  rw [hr₀] at hwithout
  have hnone : r.frames = [] := congrArg Prod.snd (Option.some.inj hwith)
  have hsome : r₀.frames = [[97, 98]] := congrArg Prod.snd (Option.some.inj hwithout)
  rw [hnone, hsome] at hframes
  cases hframes

end XmsgImXsc
