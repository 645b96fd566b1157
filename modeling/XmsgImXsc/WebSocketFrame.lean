/-
# XmsgImXsc.WebSocketFrame -- cutting WebSocket frames out of received bytes

`XmsgImWebSocketChannel::decode` runs over the receive buffer of the framework: the bytes
received and not consumed yet, and behind them whatever an earlier read has left there.  It
unmasks each complete frame in place, passes the payload to `decodeFrameBinary`, and returns
how many bytes it consumed; the framework presents the others again with the next read.

`frameScanner` says what a decoder may conclude from the received bytes alone.  The code
follows it but for one case: the length of a frame in the 16-bit form is read before its two
bytes are known to be there (`Overrun`).  Where no read does that, one call of `decode` is the
library's `drain` and successive reads are its `feed` (`decodeReads_eq_feed`); the first read
that does it is rejected (`decodeReads_overrun`).
-/
import XmsgImXsc.Lib.Scanning
import XmsgImXsc.Pdu
import Mathlib.Data.List.GetD
import Mathlib.Tactic.Common

namespace XmsgImXsc

open Scanning

variable {σ : Type}

/-! ## The frame header -/

/-- `dat[i]`. -/
def byteAt (dat : Bytes) (i : Nat) : UInt8 := dat.getD i 0

/-- The operation codes of a frame. -/
def WS_FRAME_CONTINUATION : UInt8 := 0x00
def WS_FRAME_TEXT : UInt8 := 0x01
def WS_FRAME_BINARY : UInt8 := 0x02
def WS_FRAME_CLOSE : UInt8 := 0x08
def WS_FRAME_PING : UInt8 := 0x09
def WS_FRAME_PONG : UInt8 := 0x0A

/-- What the first two bytes of a frame are good for: the connection is closed, they are
skipped, or a data frame follows. -/
inductive FrameHead where
  | reject
  | skip
  | data
  deriving Repr, DecidableEq

/-- The tests `decode` makes on the first two bytes. -/
def frameHead (b0 b1 : UInt8) : FrameHead :=
  let opcode := b0 &&& 0x0F
  if b0 &&& 0x80 = 0 then .reject
  else if b1 &&& 0x80 = 0 then .reject
  else if opcode = WS_FRAME_CLOSE then .reject
  else if opcode = WS_FRAME_CONTINUATION ∨ opcode = WS_FRAME_PING ∨ opcode = WS_FRAME_PONG then
    .skip
  else if opcode = WS_FRAME_TEXT ∨ opcode = WS_FRAME_BINARY then
    if b1 = 0x80 then .reject else if b1 = 0xFF then .reject else .data
  else .reject

/-- Where the payload of a data frame starts. -/
def frameOfst (dat : Bytes) : Nat := if byteAt dat 1 < 0xFE then 6 else 8

/-- `size`: the header, the mask and the payload, whose length is in the second byte or in
the two bytes after it, in network order. -/
def frameSize (dat : Bytes) : Nat :=
  if byteAt dat 1 < 0xFE then 1 + 1 + 4 + (byteAt dat 1 &&& 0x7F).toNat
  else 1 + 3 + 4 + (256 * (byteAt dat 2).toNat + (byteAt dat 3).toNat)

/-- The four bytes in front of the payload. -/
def frameMask (dat : Bytes) : Bytes := (dat.drop (frameOfst dat - 4)).take 4

/-- `for (int i = ofst; i < size; i++) dat[i] = dat[i] ^ mask[(i - ofst) % 4]`. -/
def unmask (mask : Bytes) (ofst size : Nat) (dat : Bytes) : Bytes :=
  dat.mapIdx fun i x =>
    if ofst ≤ i ∧ i < size then x ^^^ byteAt mask ((i - ofst) % 4) else x

/-- The payload `decode` passes on: `size - ofst` bytes at `ofst` of the unmasked buffer. -/
def framePayload (dat : Bytes) : Bytes :=
  ((unmask (frameMask dat) (frameOfst dat) (frameSize dat) dat).drop (frameOfst dat)).take
    (frameSize dat - frameOfst dat)

/-! ## The decode loop -/

/-- The outcome of `decode`: its return value, the payloads it passed on, the buffer from
where it stopped and the state of the channel. -/
structure FrameDecode (σ : Type) where
  ret : Int
  frames : List Bytes
  dat : Bytes
  st : σ
  deriving Repr, DecidableEq

/-- Account for a payload passed on before the rest of the loop ran. -/
def FrameDecode.after (payload : Bytes) (r : FrameDecode σ) : FrameDecode σ :=
  { r with frames := payload :: r.frames }

/-- The body of `while (true)`.  `dat` is the buffer from the pointer on, and `len` counts
the received bytes in it; the first argument bounds the number of rounds. -/
def decodeLoop (mtu : Nat) (decodeFrameBinary : σ → Bytes → σ × Bool) :
    Nat → Bytes → Nat → Nat → σ → Option (FrameDecode σ)
  | 0, _, _, _, _ => none
  | rounds + 1, dat, used, len, s =>
      if len < 2 then some ⟨used, [], dat, s⟩
      else
        match frameHead (byteAt dat 0) (byteAt dat 1) with
        | .reject => some ⟨-1, [], dat, s⟩
        | .skip => decodeLoop mtu decodeFrameBinary rounds (dat.drop 2) (used + 2) (len - 2) s
        | .data =>
            let size := frameSize dat
            if mtu < size then some ⟨-1, [], dat, s⟩
            else if len < size then some ⟨used, [], dat, s⟩
            else
              let payload := framePayload dat
              let dat := unmask (frameMask dat) (frameOfst dat) size dat
              let r := decodeFrameBinary s payload
              if !r.2 then some ⟨-1, [payload], dat, r.1⟩
              else
                (decodeLoop mtu decodeFrameBinary rounds (dat.drop size) (used + size)
                  (len - size) r.1).map (·.after payload)

/-- `decode(wk, dat, len)`, where `stale` is what follows the received bytes in the buffer.
Every round but the last consumes two bytes at least. -/
def XmsgImWebSocketChannel.decode (mtu : Nat) (decodeFrameBinary : σ → Bytes → σ × Bool)
    (dat stale : Bytes) (s : σ) : Option (FrameDecode σ) :=
  decodeLoop mtu decodeFrameBinary (dat.length + 1) (dat ++ stale) 0 dat.length s

/-! ## Successive reads -/

/-- The outcome of a sequence of reads: whether all were accepted, the payloads passed on and
the state of the channel. -/
structure Reads (σ : Type) where
  accepted : Bool
  frames : List Bytes
  st : σ
  deriving Repr, DecidableEq

/-- Account for payloads passed on by an earlier read. -/
def Reads.prepend (frames : List Bytes) (r : Reads σ) : Reads σ :=
  { r with frames := frames ++ r.frames }

/-- Reads in the order of arrival, each with the stale bytes behind it.  What a read does not
consume is presented again, as `decode` has left it; a rejected read ends the connection. -/
def decodeReads (mtu : Nat) (decodeFrameBinary : σ → Bytes → σ × Bool) :
    List (Bytes × Bytes) → Bytes → σ → Option (Reads σ)
  | [], _, s => some ⟨true, [], s⟩
  | (chunk, stale) :: reads, rest, s =>
      let dat := rest ++ chunk
      match XmsgImWebSocketChannel.decode mtu decodeFrameBinary dat stale s with
      | none => none
      | some d =>
          if d.ret < 0 then some ⟨false, d.frames, d.st⟩
          else
            (decodeReads mtu decodeFrameBinary reads (d.dat.take (dat.length - d.ret.toNat))
              d.st).map (·.prepend d.frames)

/-! ## Frames as a scanner

A scanner has to give the same item and the same size whatever bytes follow, and to go on
waiting only where more bytes can change its mind.  `frameScan` has both because it tests that
the length bytes are there before it reads them. -/

/-- How many bytes have to be there before `frameSize` can be read. -/
def headLength (dat : Bytes) : Nat := if byteAt dat 1 < 0xFE then 2 else 4

/-- What the received bytes alone say: `some payload` is a data frame and `none` two bytes to
skip. -/
def frameScan (mtu : Nat) (dat : Bytes) : Scan (Option Bytes) :=
  if dat.length < 2 then .more
  else
    match frameHead (byteAt dat 0) (byteAt dat 1) with
    | .reject => .bad
    | .skip => .item none 2
    | .data =>
        if dat.length < headLength dat then .more
        else if mtu < frameSize dat then .bad
        else if dat.length < frameSize dat then .more
        else .item (some (framePayload dat)) (frameSize dat)

section Append

variable {dat : Bytes} (r : Bytes)

theorem byteAt_append {i : Nat} (h : i < dat.length) : byteAt (dat ++ r) i = byteAt dat i :=
  List.getD_append _ _ _ _ h

theorem frameHead_append (h : 2 ≤ dat.length) :
    frameHead (byteAt (dat ++ r) 0) (byteAt (dat ++ r) 1) =
      frameHead (byteAt dat 0) (byteAt dat 1) := by
  rw [byteAt_append r (by omega), byteAt_append r (by omega)]

theorem frameOfst_append (h : 2 ≤ dat.length) : frameOfst (dat ++ r) = frameOfst dat := by
  unfold frameOfst
  rw [byteAt_append r (by omega)]

/-- The size is decided by the head. -/
theorem frameSize_append (h : 2 ≤ dat.length) (hhead : headLength dat ≤ dat.length) :
    frameSize (dat ++ r) = frameSize dat := by
  unfold headLength at hhead
  unfold frameSize
  rw [byteAt_append r (by omega)]
  by_cases hshort : byteAt dat 1 < 0xFE
  · rw [if_pos hshort, if_pos hshort]
  · rw [if_neg hshort] at hhead
    rw [if_neg hshort, if_neg hshort, byteAt_append r (by omega), byteAt_append r (by omega)]

theorem frameOfst_le_frameSize (dat : Bytes) : frameOfst dat ≤ frameSize dat := by
  unfold frameOfst frameSize
  split <;> omega

theorem headLength_le_frameOfst (dat : Bytes) : headLength dat ≤ frameOfst dat := by
  unfold headLength frameOfst
  split <;> omega

theorem four_le_frameOfst (dat : Bytes) : 4 ≤ frameOfst dat := by
  unfold frameOfst
  split <;> omega

@[simp] theorem unmask_length (mask : Bytes) (ofst size : Nat) (dat : Bytes) :
    (unmask mask ofst size dat).length = dat.length :=
  List.length_mapIdx

/-- The loop changes nothing from `size` on. -/
theorem unmask_append {mask : Bytes} {ofst size : Nat} (h : size ≤ dat.length) :
    unmask mask ofst size (dat ++ r) = unmask mask ofst size dat ++ r := by
  unfold unmask
  rw [List.mapIdx_append]
  congr 1
  apply List.ext_getElem
  · simp
  · intro i h1 h2
    have hnot : ¬ (ofst ≤ i + dat.length ∧ i + dat.length < size) := by omega
    rw [List.getElem_mapIdx, if_neg hnot]

/-- Unmasking a frame leaves the bytes behind it. -/
theorem drop_unmask {mask : Bytes} {ofst size : Nat} (h : size ≤ dat.length) :
    (unmask mask ofst size dat).drop size = dat.drop size := by
  have htake : (dat.take size).length = size := by simp [h]
  calc (unmask mask ofst size dat).drop size
      = (unmask mask ofst size (dat.take size ++ dat.drop size)).drop size := by
        rw [List.take_append_drop]
    _ = (unmask mask ofst size (dat.take size) ++ dat.drop size).drop size := by
        rw [unmask_append _ (by omega)]
    _ = dat.drop size := List.drop_left' (by simp [h])

/-- The payload of a complete frame does not depend on what follows it. -/
theorem framePayload_append (h : 2 ≤ dat.length) (hsize : frameSize dat ≤ dat.length) :
    framePayload (dat ++ r) = framePayload dat := by
  have hofst := frameOfst_le_frameSize dat
  have hhead := headLength_le_frameOfst dat
  have hfour := four_le_frameOfst dat
  have hmask : frameMask (dat ++ r) = frameMask dat := by
    unfold frameMask
    rw [frameOfst_append r h, List.drop_append_of_le_length (by omega),
      List.take_append_of_le_length (by rw [List.length_drop]; omega)]
  unfold framePayload
  rw [hmask, frameOfst_append r h, frameSize_append r h (by omega), unmask_append r hsize,
    List.drop_append_of_le_length (by simp; omega),
    List.take_append_of_le_length (by simp; omega)]

end Append

/-- What a scan reports, with the facts it stands for. -/
theorem frameScan_item {mtu : Nat} {dat : Bytes} {a : Option Bytes} {n : Nat}
    (h : frameScan mtu dat = .item a n) :
    2 ≤ dat.length ∧
      ((frameHead (byteAt dat 0) (byteAt dat 1) = .skip ∧ a = none ∧ n = 2) ∨
        (frameHead (byteAt dat 0) (byteAt dat 1) = .data ∧ a = some (framePayload dat) ∧
          n = frameSize dat ∧ frameSize dat ≤ mtu ∧ frameSize dat ≤ dat.length)) := by
  unfold frameScan at h
  by_cases hlen : dat.length < 2
  · rw [if_pos hlen] at h
    cases h
  · rw [if_neg hlen] at h
    refine ⟨by omega, ?_⟩
    cases hhead : frameHead (byteAt dat 0) (byteAt dat 1) with
    | reject =>
        rw [hhead] at h
        cases h
    | skip =>
        rw [hhead] at h
        cases h
        exact .inl ⟨rfl, rfl, rfl⟩
    | data =>
        rw [hhead] at h
        dsimp only at h
        split at h
        · cases h
        · split at h
          · cases h
          · split at h
            · cases h
            · cases h
              exact .inr ⟨rfl, rfl, rfl, by omega, by omega⟩

/-- The converse for data frames. -/
theorem frameScan_data {mtu : Nat} {dat : Bytes} (h2 : 2 ≤ dat.length)
    (hhead : frameHead (byteAt dat 0) (byteAt dat 1) = .data) (hmtu : frameSize dat ≤ mtu)
    (hsize : frameSize dat ≤ dat.length) :
    frameScan mtu dat = .item (some (framePayload dat)) (frameSize dat) := by
  have hofst := frameOfst_le_frameSize dat
  have hlen := headLength_le_frameOfst dat
  unfold frameScan
  rw [if_neg (by omega), hhead]
  dsimp only
  rw [if_neg (by omega), if_neg (by omega), if_neg (by omega)]

/-- The scanner of frames. -/
def frameScanner (mtu : Nat) : Scanner UInt8 (Option Bytes) where
  scan := frameScan mtu
  pos := by
    intro dat a n h
    obtain ⟨-, ⟨-, -, rfl⟩ | ⟨-, -, rfl, -, -⟩⟩ := frameScan_item h
    · omega
    · have hofst := frameOfst_le_frameSize dat
      have hfour := four_le_frameOfst dat
      omega
  le := by
    intro dat a n h
    obtain ⟨hlen, ⟨-, -, rfl⟩ | ⟨-, -, rfl, -, hsize⟩⟩ := frameScan_item h
    · exact hlen
    · exact hsize
  stable := by
    intro dat a n r h
    obtain ⟨hlen, ⟨hhead, rfl, rfl⟩ | ⟨hhead, rfl, rfl, hmtu, hsize⟩⟩ := frameScan_item h
    · unfold frameScan
      rw [if_neg (by rw [List.length_append]; omega), frameHead_append r hlen, hhead]
    · have hofst := frameOfst_le_frameSize dat
      have hle := headLength_le_frameOfst dat
      have hsame := frameSize_append r hlen (by omega)
      rw [frameScan_data, framePayload_append r hlen hsize, hsame]
      · rw [List.length_append]
        omega
      · rw [frameHead_append r hlen]
        exact hhead
      · rw [hsame]
        exact hmtu
      · rw [hsame, List.length_append]
        omega
  bad_final := by
    intro dat r a n hbad hitem
    unfold frameScan at hbad
    split at hbad
    · cases hbad
    · next hlen =>
      have hlen : 2 ≤ dat.length := by omega
      obtain ⟨-, hcase⟩ := frameScan_item hitem
      rw [frameHead_append r hlen] at hcase
      cases hhead : frameHead (byteAt dat 0) (byteAt dat 1) with
      | reject => simp [hhead] at hcase
      | skip =>
          rw [hhead] at hbad
          cases hbad
      | data =>
          rw [hhead] at hbad hcase
          dsimp only at hbad
          split at hbad
          · cases hbad
          · next hle =>
            rw [frameSize_append r hlen (by omega)] at hcase
            split at hbad
            · rcases hcase with ⟨hskip, -⟩ | ⟨-, -, -, hmtu, -⟩
              · cases hskip
              · omega
            · split at hbad <;> cases hbad

/-! ## The decode loop is a drain, unless it overruns

The two differ where fewer bytes have come than the header has: the scanner waits, and the code
compares with the mtu a size that is partly made of stale bytes.  It waits as well when that
size is within the mtu, as the received bytes are then fewer than the size. -/

/-- The handler of the scanner's items: two skipped bytes concern nobody. -/
def onFrame (decodeFrameBinary : σ → Bytes → σ × Bool) (s : σ) : Option Bytes → σ × Bool
  | none => (s, true)
  | some payload => decodeFrameBinary s payload

/-- The payloads among the items. -/
def payloads (items : List (Option Bytes)) : List Bytes := items.filterMap id

/-- The rest of a read ends inside the length of a 16-bit form frame, and with the stale bytes
behind it for the missing ones the frame is over the mtu. -/
def Overrun (mtu : Nat) (rest stale : Bytes) : Prop :=
  2 ≤ rest.length ∧ rest.length < headLength rest ∧
    frameHead (byteAt rest 0) (byteAt rest 1) = .data ∧ mtu < frameSize (rest ++ stale)

section Decode

variable (mtu : Nat) (decodeFrameBinary : σ → Bytes → σ × Bool)

/-- What `decode` returns, read off the drain of the received bytes. -/
structure IsDecode (stale : Bytes) (used : Nat) (len : Nat)
    (d : Drained UInt8 (Option Bytes) σ) (r : FrameDecode σ) : Prop where
  frames : r.frames = payloads d.items
  st : r.st = d.st
  consumed : d.stop = .starved → ¬ Overrun mtu d.rest stale →
    r.ret = ((used + (len - d.rest.length) : Nat) : Int) ∧ r.dat = d.rest ++ stale
  rejected : d.stop ≠ .starved ∨ Overrun mtu d.rest stale → r.ret = -1

/-- A starved scan: the loop stops in front of the same bytes, or overruns. -/
theorem decodeLoop_more {dat stale : Bytes} {used rounds : Nat} {s : σ}
    (hscan : frameScan mtu dat = .more) :
    ∃ r, decodeLoop mtu decodeFrameBinary (rounds + 1) (dat ++ stale) used dat.length s = some r ∧
      IsDecode mtu stale used dat.length ⟨[], dat, .starved, s⟩ r := by
  unfold frameScan at hscan
  rw [decodeLoop]
  by_cases hlen : dat.length < 2
  · rw [if_pos hlen]
    refine ⟨_, rfl, rfl, rfl, fun _ _ => ⟨by simp, rfl⟩, ?_⟩
    rintro (hne | hover)
    · exact absurd rfl hne
    · have hlong : 2 ≤ dat.length := hover.1
      omega
  rw [if_neg hlen] at hscan ⊢
  rw [frameHead_append stale (by omega)]
  cases hhead : frameHead (byteAt dat 0) (byteAt dat 1) with
  | reject =>
      rw [hhead] at hscan
      cases hscan
  | skip =>
      rw [hhead] at hscan
      cases hscan
  | data =>
      rw [hhead] at hscan
      dsimp only at hscan ⊢
      by_cases hover : mtu < frameSize (dat ++ stale)
      · -- the code has read a size that the received bytes do not hold
        have hshort : dat.length < headLength dat := by
          by_contra hle
          rw [frameSize_append stale (by omega) (by omega)] at hover
          rw [if_neg hle, if_pos hover] at hscan
          cases hscan
        rw [if_pos hover]
        refine ⟨_, rfl, rfl, rfl, ?_, fun _ => rfl⟩
        intro _ hnot
        have hoverrun : Overrun mtu dat stale := ⟨by omega, hshort, hhead, hover⟩
        exact absurd hoverrun hnot
      · -- it waits, if only because a header is longer than what it has
        have hsize : dat.length < frameSize (dat ++ stale) := by
          by_cases hle : dat.length < headLength dat
          · have h1 := headLength_le_frameOfst dat
            have h2 := frameOfst_le_frameSize (dat ++ stale)
            rw [frameOfst_append stale (by omega)] at h2
            omega
          · rw [frameSize_append stale (by omega) (by omega)] at hover ⊢
            rw [if_neg hle, if_neg hover] at hscan
            by_contra hfull
            rw [if_neg hfull] at hscan
            cases hscan
        rw [if_neg hover, if_pos hsize]
        refine ⟨_, rfl, rfl, rfl, fun _ _ => ⟨by simp, rfl⟩, ?_⟩
        rintro (hne | habs)
        · exact absurd rfl hne
        · exact absurd habs.2.2.2 hover

/-- A rejected scan: the loop returns -1. -/
theorem decodeLoop_bad {dat stale : Bytes} {used rounds : Nat} {s : σ}
    (hscan : frameScan mtu dat = .bad) :
    ∃ r, decodeLoop mtu decodeFrameBinary (rounds + 1) (dat ++ stale) used dat.length s = some r ∧
      IsDecode mtu stale used dat.length ⟨[], dat, .malformed, s⟩ r := by
  have hret (dat' : Bytes) : IsDecode mtu stale used dat.length
      ⟨[], dat, .malformed, s⟩ (⟨-1, [], dat', s⟩ : FrameDecode σ) := by
    refine ⟨rfl, rfl, ?_, fun _ => rfl⟩
    intro hstop
    cases hstop
  unfold frameScan at hscan
  rw [decodeLoop]
  by_cases hlen : dat.length < 2
  · rw [if_pos hlen] at hscan
    cases hscan
  rw [if_neg hlen] at hscan ⊢
  rw [frameHead_append stale (by omega)]
  cases hhead : frameHead (byteAt dat 0) (byteAt dat 1) with
  | reject => exact ⟨_, rfl, hret _⟩
  | skip =>
      rw [hhead] at hscan
      cases hscan
  | data =>
      rw [hhead] at hscan
      dsimp only at hscan ⊢
      by_cases hle : dat.length < headLength dat
      · rw [if_pos hle] at hscan
        cases hscan
      · rw [if_neg hle] at hscan
        rw [frameSize_append stale (by omega) (by omega)]
        by_cases hover : mtu < frameSize dat
        · rw [if_pos hover]
          exact ⟨_, rfl, hret _⟩
        · rw [if_neg hover] at hscan
          split at hscan <;> cases hscan

/-- Account for the bytes in front of the part of the buffer that is decoded next. -/
theorem IsDecode.advance {stale : Bytes} {used len n : Nat} {a : Option Bytes}
    {d : Drained UInt8 (Option Bytes) σ} {r r' : FrameDecode σ}
    (h : IsDecode mtu stale (used + n) (len - n) d r) (hn : n ≤ len)
    (hrest : d.rest.length ≤ len - n) (hframes : r'.frames = payloads [a] ++ r.frames)
    (hret : r'.ret = r.ret) (hdat : r'.dat = r.dat) (hst : r'.st = r.st) :
    IsDecode mtu stale used len (d.prepend [a]) r' where
  frames := by
    rw [hframes, h.frames, Drained.prepend_items]
    exact (List.filterMap_append (l := [a])).symm
  st := by
    rw [hst, h.st]
    rfl
  consumed := by
    intro hstop hnot
    obtain ⟨hr, hd⟩ := h.consumed hstop hnot
    refine ⟨?_, hdat.trans hd⟩
    rw [hret, hr, Drained.prepend_rest]
    congr 1
    omega
  rejected := fun hor => hret.trans (h.rejected hor)

/-- `decode` drains the received bytes. -/
theorem decodeLoop_isDecode (dat stale : Bytes) (used : Nat) (s : σ) {rounds : Nat}
    (hrounds : dat.length < rounds) :
    ∃ r, decodeLoop mtu decodeFrameBinary rounds (dat ++ stale) used dat.length s = some r ∧
      IsDecode mtu stale used dat.length
        (drain (frameScanner mtu) (onFrame decodeFrameBinary) dat s) r := by
  induction dat, s using drain.induct (frameScanner mtu) (onFrame decodeFrameBinary)
    generalizing used rounds with
  | case1 dat s hscan =>
      obtain ⟨rounds, rfl⟩ := Nat.exists_eq_add_of_lt hrounds
      rw [drain_more _ _ hscan]
      exact decodeLoop_more mtu decodeFrameBinary hscan
  | case2 dat s hscan =>
      obtain ⟨rounds, rfl⟩ := Nat.exists_eq_add_of_lt hrounds
      rw [drain_bad _ _ hscan]
      exact decodeLoop_bad mtu decodeFrameBinary hscan
  | case3 dat s a n hscan haccept ih =>
      obtain ⟨rounds, rfl⟩ := Nat.exists_eq_add_of_lt hrounds
      have hpos := (frameScanner mtu).pos hscan
      have hn := (frameScanner mtu).le hscan
      have hdrop : (dat.drop n).length = dat.length - n := List.length_drop
      obtain ⟨r, hr, hdecode⟩ := ih (used + n)
        (by omega : (dat.drop n).length < dat.length + rounds)
      rw [hdrop] at hr hdecode
      have hrest := (drain_rest_suffix (frameScanner mtu) (onFrame decodeFrameBinary)
        (dat.drop n) (onFrame decodeFrameBinary s a).1).length_le
      rw [hdrop] at hrest
      rw [drain_accept _ _ hscan haccept, decodeLoop]
      -- two bytes are stepped over, or a payload is accepted
      obtain ⟨hlen, ⟨hhead, rfl, rfl⟩ | ⟨hhead, rfl, rfl, hmtu, hsize⟩⟩ := frameScan_item hscan
      · rw [if_neg (by omega), frameHead_append stale hlen, hhead]
        dsimp only
        rw [List.drop_append_of_le_length hn]
        exact ⟨r, hr, hdecode.advance mtu hn hrest rfl rfl rfl rfl⟩
      · have hle := headLength_le_frameOfst dat
        have hofst := frameOfst_le_frameSize dat
        have hpayload := framePayload_append stale hlen hsize
        have haccept' : (decodeFrameBinary s (framePayload dat)).2 = true := haccept
        rw [if_neg (by omega), frameHead_append stale hlen, hhead]
        dsimp only
        rw [frameSize_append stale hlen (by omega), if_neg (by omega), if_neg (by omega),
          hpayload, haccept', drop_unmask (by rw [List.length_append]; omega),
          List.drop_append_of_le_length hn]
        refine ⟨r.after (framePayload dat), ?_, ?_⟩
        · have hr' : decodeLoop mtu decodeFrameBinary (dat.length + rounds)
              (dat.drop (frameSize dat) ++ stale) (used + frameSize dat)
              (dat.length - frameSize dat) (decodeFrameBinary s (framePayload dat)).1 = some r := hr
          simp [hr']
        · exact hdecode.advance mtu hn hrest rfl rfl rfl rfl
  | case4 dat s a n hscan hrefuse =>
      obtain ⟨rounds, rfl⟩ := Nat.exists_eq_add_of_lt hrounds
      have hrefuse : (onFrame decodeFrameBinary s a).2 = false := by simpa using hrefuse
      rw [drain_refuse _ _ hscan hrefuse, decodeLoop]
      obtain ⟨hlen, ⟨hhead, rfl, rfl⟩ | ⟨hhead, rfl, rfl, hmtu, hsize⟩⟩ := frameScan_item hscan
      · cases hrefuse
      · have hle := headLength_le_frameOfst dat
        have hofst := frameOfst_le_frameSize dat
        have hrefuse' : (decodeFrameBinary s (framePayload dat)).2 = false := hrefuse
        rw [if_neg (by omega), frameHead_append stale hlen, hhead]
        dsimp only
        rw [frameSize_append stale hlen (by omega), if_neg (by omega), if_neg (by omega),
          framePayload_append stale hlen hsize, hrefuse']
        refine ⟨_, rfl, rfl, rfl, ?_, fun _ => rfl⟩
        intro hstop
        cases hstop

end Decode

/-! ## Reads are a feed, unless one overruns

By induction on the reads; what a read leaves is what the next one begins with, since the code
changes no byte behind the frames it has taken. -/

section Reads

variable (mtu : Nat) (decodeFrameBinary : σ → Bytes → σ × Bool)

/-- The feed of the received chunks. -/
def feedReads (chunks : List Bytes) (rest : Bytes) (s : σ) : Drained UInt8 (Option Bytes) σ :=
  feed (frameScanner mtu) (onFrame decodeFrameBinary) chunks rest s

/-- What the reads show of a feed. -/
def Reads.ofFeed (d : Drained UInt8 (Option Bytes) σ) : Reads σ :=
  ⟨d.stop = .starved, payloads d.items, d.st⟩

theorem Reads.ofFeed_prepend (items : List (Option Bytes))
    (d : Drained UInt8 (Option Bytes) σ) :
    Reads.ofFeed (d.prepend items) = (Reads.ofFeed d).prepend (payloads items) := by
  unfold Reads.ofFeed Reads.prepend
  rw [Drained.prepend_items, payloads, List.filterMap_append]
  rfl

/-- No read that leaves a rest overruns. -/
def OverrunFree (reads : List (Bytes × Bytes)) (rest : Bytes) (s : σ) : Prop :=
  ∀ pre chunk stale post, reads = pre ++ (chunk, stale) :: post →
    (feedReads mtu decodeFrameBinary (pre.map (·.1) ++ [chunk]) rest s).stop = .starved →
      ¬ Overrun mtu (feedReads mtu decodeFrameBinary (pre.map (·.1) ++ [chunk]) rest s).rest stale

theorem feedReads_singleton (chunk rest : Bytes) (s : σ) :
    (feedReads mtu decodeFrameBinary [chunk] rest s).stop =
        (drain (frameScanner mtu) (onFrame decodeFrameBinary) (rest ++ chunk) s).stop ∧
      (feedReads mtu decodeFrameBinary [chunk] rest s).rest =
        (drain (frameScanner mtu) (onFrame decodeFrameBinary) (rest ++ chunk) s).rest := by
  unfold feedReads
  by_cases hstop : (drain (frameScanner mtu) (onFrame decodeFrameBinary) (rest ++ chunk) s).stop =
      .starved
  · rw [feed_cons_starved _ _ hstop]
    exact ⟨hstop.symm, rfl⟩
  · rw [feed_cons_stopped _ _ hstop]
    exact ⟨rfl, rfl⟩

variable {mtu decodeFrameBinary}

/-- One read that leaves a rest and does not overrun: the next reads go on with that rest. -/
theorem decodeReads_cons_starved {chunk stale rest : Bytes} {reads : List (Bytes × Bytes)}
    {s : σ} {d : Drained UInt8 (Option Bytes) σ}
    (hd : drain (frameScanner mtu) (onFrame decodeFrameBinary) (rest ++ chunk) s = d)
    (hstop : d.stop = .starved) (hnot : ¬ Overrun mtu d.rest stale) :
    decodeReads mtu decodeFrameBinary ((chunk, stale) :: reads) rest s =
      (decodeReads mtu decodeFrameBinary reads d.rest d.st).map (·.prepend (payloads d.items)) := by
  obtain ⟨r, hr, hdecode⟩ := decodeLoop_isDecode mtu decodeFrameBinary (rest ++ chunk) stale 0 s
    (Nat.lt_succ_self (rest ++ chunk).length)
  rw [hd] at hdecode
  have hsuffix := drain_rest_suffix (frameScanner mtu) (onFrame decodeFrameBinary)
    (rest ++ chunk) s
  rw [hd] at hsuffix
  have hlen := hsuffix.length_le
  obtain ⟨hret, hdat⟩ := hdecode.consumed hstop hnot
  rw [decodeReads, XmsgImWebSocketChannel.decode, hr]
  dsimp only
  have hnonneg : ¬ r.ret < 0 := by
    rw [hret]
    omega
  have htake : r.dat.take ((rest ++ chunk).length - r.ret.toNat) = d.rest := by
    rw [hret, hdat, Int.toNat_natCast]
    exact List.take_left' (by omega)
  rw [if_neg hnonneg, htake, hdecode.st, hdecode.frames]

/-- One read that stops for another reason or overruns is rejected. -/
theorem decodeReads_cons_rejected {chunk stale rest : Bytes} {reads : List (Bytes × Bytes)}
    {s : σ} {d : Drained UInt8 (Option Bytes) σ}
    (hd : drain (frameScanner mtu) (onFrame decodeFrameBinary) (rest ++ chunk) s = d)
    (hreject : d.stop ≠ .starved ∨ Overrun mtu d.rest stale) :
    decodeReads mtu decodeFrameBinary ((chunk, stale) :: reads) rest s =
      some ⟨false, payloads d.items, d.st⟩ := by
  obtain ⟨r, hr, hdecode⟩ := decodeLoop_isDecode mtu decodeFrameBinary (rest ++ chunk) stale 0 s
    (Nat.lt_succ_self (rest ++ chunk).length)
  rw [hd] at hdecode
  have hret := hdecode.rejected hreject
  have hneg : r.ret < 0 := by
    rw [hret]
    decide
  rw [decodeReads, XmsgImWebSocketChannel.decode, hr]
  dsimp only
  rw [if_pos hneg, hdecode.frames, hdecode.st]

/-- The reads after one that leaves a rest. -/
theorem OverrunFree.tail {chunk stale rest : Bytes} {reads : List (Bytes × Bytes)} {s : σ}
    (h : OverrunFree mtu decodeFrameBinary ((chunk, stale) :: reads) rest s)
    (hstop : (drain (frameScanner mtu) (onFrame decodeFrameBinary) (rest ++ chunk) s).stop =
      .starved) :
    OverrunFree mtu decodeFrameBinary reads
      (drain (frameScanner mtu) (onFrame decodeFrameBinary) (rest ++ chunk) s).rest
      (drain (frameScanner mtu) (onFrame decodeFrameBinary) (rest ++ chunk) s).st := by
  intro pre chunk' stale' post hreads
  have hcons := h ((chunk, stale) :: pre) chunk' stale' post (by rw [hreads]; rfl)
  unfold feedReads at hcons ⊢
  rw [List.map_cons, List.cons_append, feed_cons_starved _ _ hstop] at hcons
  exact hcons

/-- Reads none of which overruns show the feed of their chunks, whatever bytes they have
behind them. -/
theorem decodeReads_eq_feed {reads : List (Bytes × Bytes)} {rest : Bytes} {s : σ}
    (h : OverrunFree mtu decodeFrameBinary reads rest s) :
    decodeReads mtu decodeFrameBinary reads rest s =
      some (Reads.ofFeed (feedReads mtu decodeFrameBinary (reads.map (·.1)) rest s)) := by
  induction reads generalizing rest s with
  | nil => rfl
  | cons read reads ih =>
      obtain ⟨chunk, stale⟩ := read
      by_cases hstop : (drain (frameScanner mtu) (onFrame decodeFrameBinary) (rest ++ chunk) s).stop =
          .starved
      · have hsingle := feedReads_singleton mtu decodeFrameBinary chunk rest s
        have hnot := h [] chunk stale reads rfl
        rw [List.map_nil, List.nil_append, hsingle.1, hsingle.2] at hnot
        rw [decodeReads_cons_starved rfl hstop (hnot hstop), ih (h.tail hstop)]
        unfold feedReads
        rw [List.map_cons, feed_cons_starved _ _ hstop, Reads.ofFeed_prepend]
        rfl
      · rw [decodeReads_cons_rejected rfl (.inl hstop)]
        unfold feedReads Reads.ofFeed
        rw [List.map_cons, feed_cons_stopped _ _ hstop]
        simp [hstop]

/-- The first read that overruns is rejected, with the payloads passed on before it. -/
theorem decodeReads_overrun {reads post : List (Bytes × Bytes)} {chunk stale rest : Bytes}
    {s : σ} (h : OverrunFree mtu decodeFrameBinary reads rest s)
    (hstop : (feedReads mtu decodeFrameBinary (reads.map (·.1) ++ [chunk]) rest s).stop =
      .starved)
    (hover : Overrun mtu
      (feedReads mtu decodeFrameBinary (reads.map (·.1) ++ [chunk]) rest s).rest stale) :
    decodeReads mtu decodeFrameBinary (reads ++ (chunk, stale) :: post) rest s =
      some ⟨false,
        payloads (feedReads mtu decodeFrameBinary (reads.map (·.1) ++ [chunk]) rest s).items,
        (feedReads mtu decodeFrameBinary (reads.map (·.1) ++ [chunk]) rest s).st⟩ := by
  induction reads generalizing rest s with
  | nil =>
      rw [List.map_nil, List.nil_append] at hstop hover ⊢
      have hsingle := feedReads_singleton mtu decodeFrameBinary chunk rest s
      rw [hsingle.1] at hstop
      rw [hsingle.2] at hover
      rw [List.nil_append, decodeReads_cons_rejected rfl (.inr hover)]
      unfold feedReads
      rw [feed_cons_starved _ _ hstop]
      simp [feed]
  | cons read reads ih =>
      obtain ⟨chunk', stale'⟩ := read
      simp only [List.map_cons, List.cons_append] at hstop hover ⊢
      by_cases hfirst :
          (drain (frameScanner mtu) (onFrame decodeFrameBinary) (rest ++ chunk') s).stop = .starved
      · unfold feedReads at hstop hover ⊢
        rw [feed_cons_starved _ _ hfirst] at hstop hover ⊢
        have hsingle := feedReads_singleton mtu decodeFrameBinary chunk' rest s
        have hnot := h [] chunk' stale' reads rfl
        rw [List.map_nil, List.nil_append, hsingle.1, hsingle.2] at hnot
        rw [decodeReads_cons_starved rfl hfirst (hnot hfirst),
          ih (h.tail hfirst) hstop hover, Drained.prepend_items, payloads, payloads, payloads,
          List.filterMap_append]
        rfl
      · unfold feedReads at hstop
        rw [feed_cons_stopped _ _ hfirst] at hstop
        exact absurd hstop hfirst

end Reads

end XmsgImXsc
