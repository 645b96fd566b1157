/-
# XmsgImXsc.WebSocketSplit -- frames of a client, however the socket delivers them

`ClientFrame` is a complete masked data frame as a client sends it.  A stream of such frames
is decoded to their payloads when it comes in one read.  Split into several reads it is
decoded to the same payloads, whatever stale bytes lie behind each read, exactly when no
read ends inside the two length bytes of a frame in a way that lets stale bytes push the
size over the mtu (`SplitSafe`).

* When no read overruns, the reads are a feed, and a feed does not depend on how the bytes are
  cut.  So what is left is to decode the stream in one piece (`drain_streamBytes`).
* Whether a read overruns is seen from how many bytes of the next frame it has, and from the
  stale bytes (`overrun_iff`).  `SplitSafe` is that no stale bytes make it so.
* Where the condition fails there are stale bytes with which a read is rejected
  (`exists_rejected_of_overrun`), so it is exact (`splitSafe_of_reads`).
-/
import XmsgImXsc.WebSocketFrame

namespace XmsgImXsc

open Scanning

variable {σ : Type}

/-! ## The frames of a client -/

/-- A complete, final, masked TEXT or BINARY frame with a payload of 1 to 65535 bytes, whose
length is in the 7-bit or (`ext`) in the 16-bit form. -/
structure ClientFrame where
  fst : UInt8
  ext : Bool
  mask : Bytes
  payload : Bytes
  fin : fst &&& 0x80 ≠ 0
  opcode : fst &&& 0x0F = WS_FRAME_TEXT ∨ fst &&& 0x0F = WS_FRAME_BINARY
  mask_length : mask.length = 4
  pos : 0 < payload.length
  short : ext = false → payload.length ≤ 125
  long : payload.length ≤ 65535

/-- The client masks the payload it sends. -/
def applyMask (mask payload : Bytes) : Bytes :=
  payload.mapIdx fun i x => x ^^^ byteAt mask (i % 4)

namespace ClientFrame

/-- The second byte: the mask bit and the length, or the mark of the 16-bit form. -/
def lenByte (f : ClientFrame) : UInt8 :=
  if f.ext then 0xFE else UInt8.ofNat (128 + f.payload.length)

/-- The length in network order, in the 16-bit form. -/
def extBytes (f : ClientFrame) : Bytes :=
  if f.ext then [UInt8.ofNat (f.payload.length / 256), UInt8.ofNat (f.payload.length % 256)]
  else []

/-- The bytes in front of the mask. -/
def head (f : ClientFrame) : Bytes := f.fst :: f.lenByte :: f.extBytes

/-- The frame on the wire. -/
def bytes (f : ClientFrame) : Bytes := f.head ++ f.mask ++ applyMask f.mask f.payload

/-- The number of bytes of the frame. -/
def size (f : ClientFrame) : Nat := (if f.ext then 8 else 6) + f.payload.length

variable (f : ClientFrame)

theorem head_length : f.head.length = if f.ext then 4 else 2 := by
  unfold head extBytes
  cases f.ext <;> rfl

theorem bytes_length : f.bytes.length = f.size := by
  unfold bytes size applyMask
  rw [List.length_append, List.length_append, head_length, f.mask_length, List.length_mapIdx]
  split <;> omega

theorem lenByte_short (n : Nat) (hpos : 0 < n) (hle : n ≤ 125) :
    UInt8.ofNat (128 + n) &&& 0x80 ≠ 0 ∧ UInt8.ofNat (128 + n) ≠ 0x80 ∧
      UInt8.ofNat (128 + n) < 0xFE ∧ (UInt8.ofNat (128 + n) &&& 0x7F).toNat = n := by
  have hall : ∀ n : Fin 126, 0 < n.val →
      UInt8.ofNat (128 + n.val) &&& 0x80 ≠ 0 ∧ UInt8.ofNat (128 + n.val) ≠ 0x80 ∧
        UInt8.ofNat (128 + n.val) < 0xFE ∧ (UInt8.ofNat (128 + n.val) &&& 0x7F).toNat = n.val := by
    decide
  exact hall ⟨n, by omega⟩ hpos

theorem byteAt_one : byteAt f.bytes 1 = f.lenByte := rfl

/-- The high byte of the length. -/
theorem byteAt_two (hext : f.ext = true) :
    (byteAt f.bytes 2).toNat = f.payload.length / 256 := by
  have hlong := f.long
  have hbyte : byteAt f.bytes 2 = UInt8.ofNat (f.payload.length / 256) := by
    unfold byteAt bytes head extBytes
    rw [hext]
    rfl
  rw [hbyte, UInt8.toNat_ofNat']
  omega

/-- The low byte of the length. -/
theorem byteAt_three (hext : f.ext = true) :
    (byteAt f.bytes 3).toNat = f.payload.length % 256 := by
  have hbyte : byteAt f.bytes 3 = UInt8.ofNat (f.payload.length % 256) := by
    unfold byteAt bytes head extBytes
    rw [hext]
    rfl
  rw [hbyte, UInt8.toNat_ofNat']
  omega

theorem lenByte_lt : f.lenByte < 0xFE ↔ f.ext = false := by
  unfold lenByte
  cases hext : f.ext with
  | true =>
      rw [if_pos rfl]
      decide
  | false =>
      have hbyte := lenByte_short f.payload.length f.pos (f.short hext)
      exact ⟨fun _ => rfl, fun _ => hbyte.2.2.1⟩

/-- `decode` takes the frame for a data frame. -/
theorem frameHead_data : frameHead f.fst f.lenByte = .data := by
  have hmask : f.lenByte &&& 0x80 ≠ 0 ∧ f.lenByte ≠ 0x80 ∧ f.lenByte ≠ 0xFF := by
    unfold lenByte
    cases hext : f.ext with
    | true =>
        rw [if_pos rfl]
        decide
    | false =>
        obtain ⟨h1, h2, h3, -⟩ := lenByte_short f.payload.length f.pos (f.short hext)
        refine ⟨h1, h2, ?_⟩
        intro heq
        rw [if_neg Bool.false_ne_true] at heq
        rw [heq] at h3
        exact absurd h3 (by decide)
  unfold frameHead
  dsimp only
  rw [if_neg f.fin, if_neg hmask.1]
  rcases f.opcode with hop | hop
  · rw [hop, if_neg (by decide), if_neg (by decide), if_pos (by decide), if_neg hmask.2.1,
      if_neg hmask.2.2]
  · rw [hop, if_neg (by decide), if_neg (by decide), if_pos (by decide), if_neg hmask.2.1,
      if_neg hmask.2.2]

theorem frameOfst_bytes : frameOfst f.bytes = if f.ext then 8 else 6 := by
  unfold frameOfst
  rw [byteAt_one]
  cases hext : f.ext with
  | true => rw [if_neg (by rw [lenByte_lt, hext]; decide)]; rfl
  | false => rw [if_pos (by rw [lenByte_lt, hext])]; rfl

/-- `decode` computes the size of the frame. -/
theorem frameSize_bytes : frameSize f.bytes = f.size := by
  unfold frameSize size
  rw [byteAt_one]
  cases hext : f.ext with
  | true =>
      rw [if_neg (by rw [lenByte_lt, hext]; decide), byteAt_two f hext, byteAt_three f hext,
        if_pos rfl]
      omega
  | false =>
      have hbyte := lenByte_short f.payload.length f.pos (f.short hext)
      have hlen : f.lenByte = UInt8.ofNat (128 + f.payload.length) := by
        unfold lenByte
        rw [hext]
        rfl
      rw [if_pos (by rw [lenByte_lt, hext]), hlen, hbyte.2.2.2]
      rfl

/-- Unmasking what the client has masked. -/
theorem unmask_applyMask (mask pre payload : Bytes) :
    unmask mask pre.length (pre.length + payload.length) (pre ++ applyMask mask payload) =
      pre ++ payload := by
  unfold unmask applyMask
  rw [List.mapIdx_append]
  congr 1
  · apply List.ext_getElem
    · simp
    · intro i h1 h2
      rw [List.getElem_mapIdx, if_neg (by omega)]
  · apply List.ext_getElem
    · simp
    · intro i h1 h2
      rw [List.getElem_mapIdx, List.getElem_mapIdx, if_pos ⟨by omega, by omega⟩,
        Nat.add_sub_cancel, UInt8.xor_assoc, UInt8.xor_self, UInt8.xor_zero]

/-- `decode` passes on the payload of the frame. -/
theorem framePayload_bytes : framePayload f.bytes = f.payload := by
  have hofst : frameOfst f.bytes = (f.head ++ f.mask).length := by
    rw [frameOfst_bytes, List.length_append, head_length, f.mask_length]
    split <;> rfl
  have hmask : frameMask f.bytes = f.mask := by
    unfold frameMask
    have hhead : frameOfst f.bytes - 4 = f.head.length := by
      rw [hofst, List.length_append, f.mask_length, Nat.add_sub_cancel]
    rw [hhead, bytes, List.append_assoc, List.drop_left, ← f.mask_length, List.take_left]
  have hsize : frameSize f.bytes = (f.head ++ f.mask).length + f.payload.length := by
    rw [frameSize_bytes, size, ← hofst, frameOfst_bytes]
  unfold framePayload
  rw [hmask, hsize, hofst, bytes, unmask_applyMask, List.drop_left, Nat.add_sub_cancel_left,
    List.take_length]

variable {f} {mtu : Nat}

/-- A complete frame is scanned as its payload, whatever follows it. -/
theorem frameScan_bytes (hmtu : f.size ≤ mtu) (r : Bytes) :
    frameScan mtu (f.bytes ++ r) = .item (some f.payload) f.size := by
  have hlen : 2 ≤ f.bytes.length := by
    rw [bytes_length]
    unfold size
    split <;> omega
  have hscan : (frameScanner mtu).scan f.bytes =
      .item (some (framePayload f.bytes)) (frameSize f.bytes) := by
    refine frameScan_data hlen f.frameHead_data ?_ ?_
    · rw [frameSize_bytes]
      exact hmtu
    · exact Nat.le_of_eq (by rw [frameSize_bytes, bytes_length])
  rw [framePayload_bytes, frameSize_bytes] at hscan
  exact (frameScanner mtu).stable r hscan

/-- A part of a frame that is not complete is scanned as nothing yet. -/
theorem frameScan_prefix (hmtu : f.size ≤ mtu) {p q : Bytes} (hp : p ++ q = f.bytes)
    (hlt : p.length < f.size) : frameScan mtu p = .more := by
  unfold frameScan
  by_cases hlen : p.length < 2
  · rw [if_pos hlen]
  · have hhead : frameHead (byteAt p 0) (byteAt p 1) = .data := by
      rw [← frameHead_append q (by omega), hp]
      exact f.frameHead_data
    rw [if_neg hlen, hhead]
    dsimp only
    by_cases hle : p.length < headLength p
    · rw [if_pos hle]
    · have hsize : frameSize p = f.size := by
        rw [← frameSize_append q (by omega) (by omega), hp, frameSize_bytes]
      rw [if_neg hle, hsize, if_neg (by omega), if_pos hlt]

end ClientFrame

/-! ## Streams of frames -/

/-- The bytes of successive frames. -/
def streamBytes (fs : List ClientFrame) : Bytes := (fs.map (·.bytes)).flatten

@[simp] theorem streamBytes_cons (f : ClientFrame) (fs : List ClientFrame) :
    streamBytes (f :: fs) = f.bytes ++ streamBytes fs := rfl

theorem streamBytes_append (fs₁ fs₂ : List ClientFrame) :
    streamBytes (fs₁ ++ fs₂) = streamBytes fs₁ ++ streamBytes fs₂ := by
  unfold streamBytes
  rw [List.map_append, List.flatten_append]

/-- A proper part of the next frame of a stream, or nothing when there is none. -/
def IsPartial (p : Bytes) : List ClientFrame → Prop
  | [] => p = []
  | f :: _ => p <+: f.bytes ∧ p.length < f.size

/-- A frame that has not come to its end is waited for. -/
theorem IsPartial.scan_more {mtu : Nat} {p : Bytes} {fs : List ClientFrame}
    (hmtu : ∀ f ∈ fs, f.size ≤ mtu) (h : IsPartial p fs) : frameScan mtu p = .more := by
  cases fs with
  | nil =>
      have hnil : p = [] := h
      rw [hnil]
      rfl
  | cons f fs =>
      obtain ⟨⟨q, hq⟩, hlt⟩ := h
      exact ClientFrame.frameScan_prefix (hmtu f List.mem_cons_self) hq hlt

/-- The beginning of a stream is some of its frames and a part of the next one. -/
theorem prefix_streamBytes {b : Bytes} {fs : List ClientFrame} (h : b <+: streamBytes fs) :
    ∃ fs₁ fs₂ p, fs = fs₁ ++ fs₂ ∧ b = streamBytes fs₁ ++ p ∧ IsPartial p fs₂ := by
  induction fs generalizing b with
  | nil => exact ⟨[], [], [], rfl, List.prefix_nil.mp h, rfl⟩
  | cons f fs ih =>
      rw [streamBytes_cons] at h
      by_cases hlt : b.length < f.size
      · refine ⟨[], f :: fs, b, rfl, rfl, ?_, hlt⟩
        refine List.prefix_of_prefix_length_le h (List.prefix_append _ _) ?_
        rw [f.bytes_length]
        omega
      · have hwhole : f.bytes <+: b := by
          refine List.prefix_of_prefix_length_le (List.prefix_append _ _) h ?_
          rw [f.bytes_length]
          omega
        obtain ⟨b', rfl⟩ := hwhole
        obtain ⟨fs₁, fs₂, p, rfl, rfl, hp⟩ := ih ((List.prefix_append_right_inj f.bytes).mp h)
        exact ⟨f :: fs₁, fs₂, p, rfl, by rw [streamBytes_cons, List.append_assoc], hp⟩

/-! ## What a sequence of payloads does

`decodeFrameBinary` is a parameter: it changes its state, and refuses a payload or not.  After
a refusal no payload is handed over. -/

/-- `decodeFrameBinary` on successive payloads, up to the first it refuses. -/
def handOver (decodeFrameBinary : σ → Bytes → σ × Bool) : List Bytes → σ → Reads σ
  | [], s => ⟨true, [], s⟩
  | payload :: ps, s =>
      if (decodeFrameBinary s payload).2 then
        (handOver decodeFrameBinary ps (decodeFrameBinary s payload).1).prepend [payload]
      else ⟨false, [payload], (decodeFrameBinary s payload).1⟩

section HandOver

variable {decodeFrameBinary : σ → Bytes → σ × Bool} {ps qs : List Bytes} {s : σ}

/-- An accepted payload is followed by the others, -/
theorem handOver_accept {payload : Bytes} (h : (decodeFrameBinary s payload).2 = true) :
    handOver decodeFrameBinary (payload :: ps) s =
      (handOver decodeFrameBinary ps (decodeFrameBinary s payload).1).prepend [payload] :=
  if_pos h

/-- a refused one is the last. -/
theorem handOver_refuse {payload : Bytes} (h : (decodeFrameBinary s payload).2 = false) :
    handOver decodeFrameBinary (payload :: ps) s =
      ⟨false, [payload], (decodeFrameBinary s payload).1⟩ :=
  if_neg (by rw [h]; exact Bool.false_ne_true)

/-- Accepted payloads are all passed on. -/
theorem handOver_frames (h : (handOver decodeFrameBinary ps s).accepted = true) :
    (handOver decodeFrameBinary ps s).frames = ps := by
  induction ps generalizing s with
  | nil => rfl
  | cons payload ps ih =>
      cases haccept : (decodeFrameBinary s payload).2 with
      | true =>
          rw [handOver_accept haccept] at h ⊢
          show payload :: (handOver decodeFrameBinary ps _).frames = payload :: ps
          rw [ih h]
      | false =>
          rw [handOver_refuse haccept] at h
          cases h

/-- After accepted payloads the others follow. -/
theorem handOver_append (h : (handOver decodeFrameBinary ps s).accepted = true) :
    handOver decodeFrameBinary (ps ++ qs) s =
      (handOver decodeFrameBinary qs (handOver decodeFrameBinary ps s).st).prepend ps := by
  induction ps generalizing s with
  | nil => rfl
  | cons payload ps ih =>
      cases haccept : (decodeFrameBinary s payload).2 with
      | true =>
          rw [handOver_accept haccept] at h ⊢
          rw [List.cons_append, handOver_accept haccept, ih h]
          rfl
      | false =>
          rw [handOver_refuse haccept] at h
          cases h

/-- At least one payload is passed on, when there is one. -/
theorem handOver_cons_frames_ne_nil (payload : Bytes) :
    (handOver decodeFrameBinary (payload :: ps) s).frames ≠ [] := by
  unfold handOver
  split
  · exact List.cons_ne_nil _ _
  · exact List.cons_ne_nil _ _

/-- A channel that refuses no payload accepts them all. -/
theorem handOver_accepted (h : ∀ s payload, (decodeFrameBinary s payload).2 = true) :
    (handOver decodeFrameBinary ps s).accepted = true := by
  induction ps generalizing s with
  | nil => rfl
  | cons payload ps ih =>
      rw [handOver_accept (h s payload)]
      exact ih

end HandOver

/-! ## Decoding a stream -/

section Stream

variable {mtu : Nat} (decodeFrameBinary : σ → Bytes → σ × Bool) {fs : List ClientFrame}
  {p : Bytes} (s : σ)

/-- Draining complete frames and a part of another passes the payloads on, and leaves the
part if they were accepted. -/
theorem drain_streamBytes (hmtu : ∀ f ∈ fs, f.size ≤ mtu) (hp : frameScan mtu p = .more) :
    Reads.ofFeed (drain (frameScanner mtu) (onFrame decodeFrameBinary) (streamBytes fs ++ p) s) =
        handOver decodeFrameBinary (fs.map (·.payload)) s ∧
      (drain (frameScanner mtu) (onFrame decodeFrameBinary) (streamBytes fs ++ p) s).stop ≠
        .malformed ∧
      ((handOver decodeFrameBinary (fs.map (·.payload)) s).accepted = true →
        (drain (frameScanner mtu) (onFrame decodeFrameBinary) (streamBytes fs ++ p) s).rest =
          p) := by
  induction fs generalizing s with
  | nil =>
      have hmore : (frameScanner mtu).scan (streamBytes [] ++ p) = .more := hp
      rw [drain_more _ _ hmore]
      refine ⟨rfl, ?_, fun _ => rfl⟩
      intro hstop
      cases hstop
  | cons f fs ih =>
      have hscan : (frameScanner mtu).scan (streamBytes (f :: fs) ++ p) =
          .item (some f.payload) f.size := by
        rw [streamBytes_cons, List.append_assoc]
        exact ClientFrame.frameScan_bytes (hmtu f List.mem_cons_self) _
      have hdrop : (streamBytes (f :: fs) ++ p).drop f.size = streamBytes fs ++ p := by
        rw [streamBytes_cons, List.append_assoc, ← f.bytes_length, List.drop_left]
      rw [List.map_cons]
      cases haccept : (decodeFrameBinary s f.payload).2 with
      | true =>
          obtain ⟨hreads, hwell, hrest⟩ := ih (decodeFrameBinary s f.payload).1
            fun g hg => hmtu g (List.mem_cons_of_mem f hg)
          rw [drain_accept _ _ hscan haccept, hdrop, handOver_accept haccept,
            Reads.ofFeed_prepend]
          refine ⟨?_, hwell, hrest⟩
          show (Reads.ofFeed (drain _ _ _ (decodeFrameBinary s f.payload).1)).prepend _ = _
          rw [hreads]
          rfl
      | false =>
          rw [drain_refuse _ _ hscan haccept, handOver_refuse haccept]
          refine ⟨rfl, ?_, ?_⟩
          · intro hstop
            cases hstop
          · intro habs
            cases habs

/-- Feeding a beginning of a stream in chunks does the same. -/
theorem feedReads_streamBytes {chunks : List Bytes} {fs₂ : List ClientFrame}
    (hmtu : ∀ f ∈ fs ++ fs₂, f.size ≤ mtu) (hp : IsPartial p fs₂)
    (hchunks : chunks.flatten = streamBytes fs ++ p) :
    Reads.ofFeed (feedReads mtu decodeFrameBinary chunks [] s) =
        handOver decodeFrameBinary (fs.map (·.payload)) s ∧
      ((handOver decodeFrameBinary (fs.map (·.payload)) s).accepted = true →
        (feedReads mtu decodeFrameBinary chunks [] s).rest = p) := by
  have hnil : (frameScanner mtu).scan [] = .more := rfl
  have hmtu₁ : ∀ f ∈ fs, f.size ≤ mtu := fun f hf => hmtu f (List.mem_append_left _ hf)
  have hmtu₂ : ∀ f ∈ fs₂, f.size ≤ mtu := fun f hf => hmtu f (List.mem_append_right _ hf)
  obtain ⟨hreads, -, hrest⟩ := drain_streamBytes decodeFrameBinary s hmtu₁
    (hp.scan_more hmtu₂)
  have hwell : ∀ pre, pre <+: chunks → (drain (frameScanner mtu) (onFrame decodeFrameBinary)
      ([] ++ pre.flatten) s).stop ≠ .malformed := by
    rintro pre ⟨post, hpost⟩
    -- every beginning of the chunks is a beginning of the stream
    have hprefix : pre.flatten <+: streamBytes (fs ++ fs₂) := by
      have hbegin : pre.flatten <+: streamBytes fs ++ p :=
        ⟨post.flatten, by rw [← List.flatten_append, hpost, hchunks]⟩
      refine hbegin.trans ?_
      rw [streamBytes_append]
      refine (List.prefix_append_right_inj _).mpr ?_
      cases fs₂ with
      | nil =>
          have hpnil : p = [] := hp
          rw [hpnil]
          exact List.nil_prefix
      | cons f fs₂ => exact hp.1.trans (List.prefix_append _ _)
    obtain ⟨gs₁, gs₂, q, hgs, hq, hpart⟩ := prefix_streamBytes hprefix
    rw [List.nil_append, hq]
    refine (drain_streamBytes decodeFrameBinary s ?_ (hpart.scan_more ?_)).2.1
    · intro f hf
      exact hmtu f (by rw [hgs]; exact List.mem_append_left _ hf)
    · intro f hf
      exact hmtu f (by rw [hgs]; exact List.mem_append_right _ hf)
  have hstop := feed_stop_eq_drain (frameScanner mtu) (onFrame decodeFrameBinary) hnil hwell
  have hitems := feed_items_eq_drain (frameScanner mtu) (onFrame decodeFrameBinary) chunks s hnil
  rw [List.nil_append, hchunks] at hstop hitems
  have hofFeed : Reads.ofFeed (feedReads mtu decodeFrameBinary chunks [] s) =
      handOver decodeFrameBinary (fs.map (·.payload)) s := by
    rw [← hreads]
    unfold Reads.ofFeed feedReads
    rw [hstop, hitems.1, hitems.2]
  refine ⟨hofFeed, ?_⟩
  intro haccepted
  have hstarved : (feedReads mtu decodeFrameBinary chunks [] s).stop = .starved := by
    rw [← hofFeed] at haccepted
    exact of_decide_eq_true haccepted
  rw [← hrest haccepted]
  unfold feedReads at hstarved ⊢
  rw [feed_eq_drain _ _ hnil hstarved, List.nil_append, hchunks]

end Stream

/-! ## Which reads overrun

Only a frame in the 16-bit form has length bytes that can be missing.  With two bytes of it
both are stale; with three the low one is, and the size is read as up to 255 more than it is. -/

/-- Without all the bytes of the size, the size the code reads is partly stale. -/
theorem frameSize_stale {f : ClientFrame} {p : Bytes} (stale : Bytes) (hp : p <+: f.bytes)
    (hext : f.ext = true) :
    (p.length = 2 → frameSize (p ++ stale) =
      8 + (256 * (byteAt stale 0).toNat + (byteAt stale 1).toNat)) ∧
      (p.length = 3 → frameSize (p ++ stale) =
        8 + (256 * (f.payload.length / 256) + (byteAt stale 0).toNat)) := by
  obtain ⟨q, hq⟩ := hp
  have hreceived {i : Nat} (hi : i < p.length) : byteAt (p ++ stale) i = byteAt f.bytes i := by
    rw [byteAt_append stale hi, ← hq, byteAt_append q hi]
  have hstale {i : Nat} (hi : p.length ≤ i) : byteAt (p ++ stale) i = byteAt stale (i - p.length) :=
    List.getD_append_right _ _ _ _ hi
  have hnot : ¬ f.lenByte < 0xFE := by
    rw [f.lenByte_lt, hext]
    decide
  unfold frameSize
  constructor
  · intro htwo
    rw [hreceived (by omega), f.byteAt_one, if_neg hnot, hstale (by omega), hstale (by omega),
      htwo]
  · intro hthree
    rw [hreceived (by omega), f.byteAt_one, if_neg hnot, hreceived (by omega), hstale (by omega),
      hthree, f.byteAt_two hext]

/-- A read overruns exactly when it ends after two or three bytes of a 16-bit form frame and
the stale bytes behind it push the size over the mtu. -/
theorem overrun_iff {mtu : Nat} {f : ClientFrame} {p stale : Bytes} (hp : p <+: f.bytes) :
    Overrun mtu p stale ↔ f.ext = true ∧
      ((p.length = 2 ∧ mtu < 8 + (256 * (byteAt stale 0).toNat + (byteAt stale 1).toNat)) ∨
        (p.length = 3 ∧
          mtu < 8 + (256 * (f.payload.length / 256) + (byteAt stale 0).toNat))) := by
  have hsize := frameSize_stale stale hp
  obtain ⟨q, hq⟩ := hp
  have hbyte {i : Nat} (hi : i < p.length) : byteAt p i = byteAt f.bytes i := by
    rw [← hq, byteAt_append q hi]
  constructor
  · rintro ⟨hlen, hshort, -, hover⟩
    unfold headLength at hshort
    rw [hbyte (by omega), f.byteAt_one] at hshort
    cases hext : f.ext with
    | false =>
        -- in the 7-bit form two bytes are enough
        rw [if_pos (f.lenByte_lt.mpr hext)] at hshort
        omega
    | true =>
        rw [if_neg (by rw [f.lenByte_lt, hext]; decide)] at hshort
        refine ⟨rfl, ?_⟩
        rcases (by omega : p.length = 2 ∨ p.length = 3) with htwo | hthree
        · rw [(hsize hext).1 htwo] at hover
          exact .inl ⟨htwo, hover⟩
        · rw [(hsize hext).2 hthree] at hover
          exact .inr ⟨hthree, hover⟩
  · rintro ⟨hext, hcase⟩
    have hlen : 2 ≤ p.length ∧ p.length < 4 := by omega
    refine ⟨hlen.1, ?_, ?_, ?_⟩
    · unfold headLength
      rw [hbyte (by omega), f.byteAt_one, if_neg (by rw [f.lenByte_lt, hext]; decide)]
      exact hlen.2
    · rw [hbyte (by omega), hbyte (by omega)]
      exact f.frameHead_data
    · rcases hcase with ⟨htwo, hover⟩ | ⟨hthree, hover⟩
      · rw [(hsize hext).1 htwo]
        exact hover
      · rw [(hsize hext).2 hthree]
        exact hover

section Split

variable {mtu : Nat} {decodeFrameBinary : σ → Bytes → σ × Bool} {fs : List ClientFrame} {s : σ}

/-- Reads of a beginning of a stream do not overrun when none of the parts they leave does. -/
theorem overrunFree_of_stream {reads : List (Bytes × Bytes)} (hmtu : ∀ f ∈ fs, f.size ≤ mtu)
    (hreads : (reads.map (·.1)).flatten <+: streamBytes fs)
    (hsafe : ∀ pre chunk stale post, reads = pre ++ (chunk, stale) :: post →
      ∀ fs₁ f fs₂ p, fs = fs₁ ++ f :: fs₂ →
        (pre.map (·.1) ++ [chunk]).flatten = streamBytes fs₁ ++ p → p <+: f.bytes →
        (handOver decodeFrameBinary (fs₁.map (·.payload)) s).accepted = true →
        ¬ Overrun mtu p stale) : OverrunFree mtu decodeFrameBinary reads [] s := by
  intro pre chunk stale post hsplit hstop
  have hprefix : (pre.map (·.1) ++ [chunk]).flatten <+: streamBytes fs := by
    refine List.IsPrefix.trans ⟨(post.map (·.1)).flatten, ?_⟩ hreads
    rw [hsplit, ← List.flatten_append, List.map_append, List.map_cons, List.append_assoc]
    rfl
  obtain ⟨fs₁, fs₂, p, hfs, hp, hpart⟩ := prefix_streamBytes hprefix
  obtain ⟨hofFeed, hrest⟩ := feedReads_streamBytes decodeFrameBinary s (hfs ▸ hmtu)
    hpart hp
  have haccepted : (handOver decodeFrameBinary (fs₁.map (·.payload)) s).accepted = true := by
    rw [← hofFeed]
    exact decide_eq_true hstop
  rw [hrest haccepted]
  cases fs₂ with
  | nil =>
      have hnil : p = [] := hpart
      intro hover
      have hlong : 2 ≤ p.length := hover.1
      rw [hnil] at hlong
      simp at hlong
  | cons f fs₂ => exact hsafe pre chunk stale post hsplit fs₁ f fs₂ p hfs hp hpart.1 haccepted

/-- Zero bytes behind a read never make it overrun. -/
theorem not_overrun_zero {f : ClientFrame} (hmtu : f.size ≤ mtu) {p : Bytes}
    (hp : p <+: f.bytes) : ¬ Overrun mtu p [0, 0] := by
  rw [overrun_iff hp]
  unfold ClientFrame.size at hmtu
  rintro ⟨hext, ⟨-, hover⟩ | ⟨-, hover⟩⟩
  · rw [if_pos hext] at hmtu
    simp [byteAt] at hover
    omega
  · rw [if_pos hext] at hmtu
    simp [byteAt] at hover
    omega

/-- The condition on the reads: whenever the bytes received so far end after two bytes of a
frame in the 16-bit form, no 16-bit length is over the mtu, and when they end after three, no
length with that high byte is. -/
def SplitSafe (mtu : Nat) (decodeFrameBinary : σ → Bytes → σ × Bool) (fs : List ClientFrame)
    (cs : List Bytes) (s : σ) : Prop :=
  ∀ cs₁ cs₂, cs = cs₁ ++ cs₂ → ∀ fs₁ f fs₂, fs = fs₁ ++ f :: fs₂ → f.ext = true →
    (handOver decodeFrameBinary (fs₁.map (·.payload)) s).accepted = true →
    (cs₁.flatten.length = (streamBytes fs₁).length + 2 → 8 + 65535 ≤ mtu) ∧
      (cs₁.flatten.length = (streamBytes fs₁).length + 3 →
        8 + (256 * (f.payload.length / 256) + 255) ≤ mtu)

/-- Where the condition holds, no read overruns. -/
theorem SplitSafe.overrunFree {cs : List Bytes} (h : SplitSafe mtu decodeFrameBinary fs cs s)
    (hmtu : ∀ f ∈ fs, f.size ≤ mtu) (hcs : cs.flatten = streamBytes fs)
    {reads : List (Bytes × Bytes)} (hreads : reads.map (·.1) = cs) :
    OverrunFree mtu decodeFrameBinary reads [] s := by
  refine overrunFree_of_stream hmtu ⟨[], by rw [hreads, hcs, List.append_nil]⟩ ?_
  intro pre chunk stale post hsplit fs₁ f fs₂ p hfs hp hprefix haccepted hover
  obtain ⟨hext, hcase⟩ := (overrun_iff hprefix).mp hover
  have hpre : cs = (pre.map (·.1) ++ [chunk]) ++ post.map (·.1) := by
    rw [← hreads, hsplit, List.map_append, List.map_cons, List.append_assoc]
    rfl
  obtain ⟨htwo, hthree⟩ := h _ _ hpre fs₁ f fs₂ hfs hext haccepted
  rw [hp, List.length_append] at htwo hthree
  have h0 := (byteAt stale 0).toNat_lt
  have h1 := (byteAt stale 1).toNat_lt
  rcases hcase with ⟨hlen, hlt⟩ | ⟨hlen, hlt⟩
  · have hle := htwo (by rw [hlen])
    omega
  · have hle := hthree (by rw [hlen])
    omega

/-- Reads that all have the same stale bytes behind them. -/
def readsWith (stale : Bytes) (chunks : List Bytes) : List (Bytes × Bytes) :=
  chunks.map fun chunk => (chunk, stale)

@[simp] theorem readsWith_fst (stale : Bytes) (chunks : List Bytes) :
    (readsWith stale chunks).map (·.1) = chunks := by
  unfold readsWith
  rw [List.map_map]
  exact List.map_id chunks

/-- Reads of a beginning of a stream with zero bytes behind them do not overrun. -/
theorem overrunFree_zero {chunks : List Bytes} (hmtu : ∀ f ∈ fs, f.size ≤ mtu)
    (hchunks : chunks.flatten <+: streamBytes fs) :
    OverrunFree mtu decodeFrameBinary (readsWith [0, 0] chunks) [] s := by
  refine overrunFree_of_stream hmtu (by rw [readsWith_fst]; exact hchunks) ?_
  intro pre chunk stale post hsplit fs₁ f fs₂ p hfs _ hp _
  have hmem : (chunk, stale) ∈ readsWith [0, 0] chunks := by
    rw [hsplit]
    exact List.mem_append_right _ List.mem_cons_self
  obtain ⟨b, -, heq⟩ := List.mem_map.mp hmem
  cases heq
  refine not_overrun_zero (hmtu f ?_) hp
  rw [hfs]
  exact List.mem_append_right _ List.mem_cons_self

/-- Where the condition fails, there are stale bytes with which some read is rejected before
all payloads of the stream are passed on. -/
theorem exists_rejected_of_overrun {init cs₂ : List Bytes} {c : Bytes}
    (hmtu : ∀ f ∈ fs, f.size ≤ mtu) (hcs : (init ++ c :: cs₂).flatten = streamBytes fs)
    {fs₁ fs₂ : List ClientFrame} {f : ClientFrame} {p : Bytes} (hfs : fs = fs₁ ++ f :: fs₂)
    (haccepted : (handOver decodeFrameBinary (fs₁.map (·.payload)) s).accepted = true)
    (hp : (init ++ [c]).flatten = streamBytes fs₁ ++ p) (hpart : IsPartial p (f :: fs₂))
    (hover : Overrun mtu p [0xFF, 0xFF]) :
    decodeReads mtu decodeFrameBinary
        (readsWith [0, 0] init ++ (c, [0xFF, 0xFF]) :: readsWith [] cs₂) [] s ≠
      some (handOver decodeFrameBinary (fs.map (·.payload)) s) := by
  have hfree : OverrunFree mtu decodeFrameBinary (readsWith [0, 0] init) [] s := by
    refine overrunFree_zero hmtu ⟨(c :: cs₂).flatten, ?_⟩
    rw [← List.flatten_append, hcs]
  obtain ⟨hofFeed, hrest⟩ := feedReads_streamBytes decodeFrameBinary s (hfs ▸ hmtu)
    hpart hp
  have hstop : (feedReads mtu decodeFrameBinary (init ++ [c]) [] s).stop = .starved := by
    rw [← hofFeed] at haccepted
    exact of_decide_eq_true haccepted
  have hfirst : payloads (feedReads mtu decodeFrameBinary (init ++ [c]) [] s).items =
      fs₁.map (·.payload) :=
    (congrArg Reads.frames hofFeed).trans (handOver_frames haccepted)
  rw [decodeReads_overrun hfree (by rw [readsWith_fst]; exact hstop)
    (by rw [readsWith_fst, hrest haccepted]; exact hover), readsWith_fst]
  intro heq
  -- the payloads of the later frames are missing
  have hframes := congrArg Reads.frames (Option.some.inj heq)
  rw [hfs, List.map_append, handOver_append haccepted] at hframes
  have hmissing : fs₁.map (·.payload) = fs₁.map (·.payload) ++
      (handOver decodeFrameBinary ((f :: fs₂).map (·.payload))
        (handOver decodeFrameBinary (fs₁.map (·.payload)) s).st).frames :=
    hfirst.symm.trans hframes
  exact handOver_cons_frames_ne_nil f.payload (List.self_eq_append_right.mp hmissing)

/-- A split that is right for all stale bytes meets the condition. -/
theorem splitSafe_of_reads {cs : List Bytes} (hmtu : ∀ f ∈ fs, f.size ≤ mtu)
    (hcs : cs.flatten = streamBytes fs)
    (h : ∀ reads : List (Bytes × Bytes), reads.map (·.1) = cs →
      decodeReads mtu decodeFrameBinary reads [] s =
        some (handOver decodeFrameBinary (fs.map (·.payload)) s)) :
    SplitSafe mtu decodeFrameBinary fs cs s := by
  intro cs₁ cs₂ hsplit fs₁ f fs₂ hfs hext haccepted
  -- a read that ends after `j` bytes of `f` does not overrun with 0xFF behind it
  have hsafe (j : Nat) (hj : 2 ≤ j) (hlt : j < f.size)
      (hlen : cs₁.flatten.length = (streamBytes fs₁).length + j) :
      ¬ Overrun mtu (f.bytes.take j) [0xFF, 0xFF] := by
    intro hover
    have hp : cs₁.flatten = streamBytes fs₁ ++ f.bytes.take j := by
      have htake : cs₁.flatten = (streamBytes fs).take cs₁.flatten.length := by
        rw [← hcs, hsplit, List.flatten_append, List.take_left]
      rw [htake, hlen, hfs, streamBytes_append, List.take_length_add_append, streamBytes_cons,
        List.take_append_of_le_length (by rw [f.bytes_length]; omega)]
    have hne : cs₁ ≠ [] := by
      rintro rfl
      simp at hlen
      omega
    obtain ⟨init, c, rfl⟩ : ∃ init c, cs₁ = init ++ [c] :=
      ⟨cs₁.dropLast, cs₁.getLast hne, (List.dropLast_concat_getLast hne).symm⟩
    rw [List.append_assoc, List.singleton_append] at hsplit
    have hpart : IsPartial (f.bytes.take j) (f :: fs₂) := by
      refine ⟨List.take_prefix _ _, ?_⟩
      rw [List.length_take, f.bytes_length]
      omega
    refine exists_rejected_of_overrun hmtu (hsplit ▸ hcs) hfs haccepted hp hpart hover (h _ ?_)
    rw [List.map_append, List.map_cons, readsWith_fst, readsWith_fst, hsplit]
  have hsize : 8 < f.size := by
    have hpos := f.pos
    unfold ClientFrame.size
    rw [if_pos hext]
    omega
  have hlength (j : Nat) (hj : j ≤ 8) : (f.bytes.take j).length = j := by
    rw [List.length_take, f.bytes_length]
    omega
  have hff : (byteAt [0xFF, 0xFF] 0).toNat = 255 ∧ (byteAt [0xFF, 0xFF] 1).toNat = 255 := by
    decide
  constructor
  · intro hlen
    have hnot := hsafe 2 (by omega) (by omega) hlen
    rw [overrun_iff (List.take_prefix _ _), hlength 2 (by omega), hff.1, hff.2] at hnot
    by_contra hlt
    exact hnot ⟨hext, .inl ⟨rfl, by omega⟩⟩
  · intro hlen
    have hnot := hsafe 3 (by omega) (by omega) hlen
    rw [overrun_iff (List.take_prefix _ _), hlength 3 (by omega), hff.1] at hnot
    by_contra hlt
    exact hnot ⟨hext, .inr ⟨rfl, by omega⟩⟩

/-- A safe split is right for all stale bytes. -/
theorem decodeReads_of_splitSafe {cs : List Bytes} (hmtu : ∀ f ∈ fs, f.size ≤ mtu)
    (hcs : cs.flatten = streamBytes fs) (hsafe : SplitSafe mtu decodeFrameBinary fs cs s)
    {reads : List (Bytes × Bytes)} (hmap : reads.map (·.1) = cs) :
    decodeReads mtu decodeFrameBinary reads [] s =
      some (handOver decodeFrameBinary (fs.map (·.payload)) s) := by
  have hall : ∀ f ∈ fs ++ [], f.size ≤ mtu := by
    rw [List.append_nil]
    exact hmtu
  have hnil : IsPartial [] [] := rfl
  rw [decodeReads_eq_feed (hsafe.overrunFree hmtu hcs hmap), hmap]
  refine congrArg some (feedReads_streamBytes decodeFrameBinary s hall hnil ?_).1
  rw [List.append_nil]
  exact hcs

/-- The only read ends at the end of the stream. -/
theorem splitSafe_whole : SplitSafe mtu decodeFrameBinary fs [streamBytes fs] s := by
  intro cs₁ cs₂ hsplit fs₁ f fs₂ hfs hext _
  have hsize := f.bytes_length
  have hpos := f.pos
  have hlen : cs₁.flatten.length = 0 ∨
      cs₁.flatten.length = (streamBytes fs₁).length + (f.size + (streamBytes fs₂).length) := by
    cases cs₁ with
    | nil => exact .inl rfl
    | cons c cs₁ =>
        right
        obtain ⟨rfl, htail⟩ := List.cons.inj hsplit
        have hnil : cs₁ = [] := (List.append_eq_nil_iff.mp htail.symm).1
        rw [hnil, List.flatten_singleton, hfs, streamBytes_append, streamBytes_cons,
          List.length_append, List.length_append, hsize]
  unfold ClientFrame.size at hlen
  rw [if_pos hext] at hlen
  constructor
  · intro htwo
    omega
  · intro hthree
    omega

/-- A stream of frames within the mtu is decoded to its payloads when it comes in one read.
Split into several reads it is decoded to the same payloads, with none rejected and whatever
bytes lie behind the reads, exactly when the split is safe. -/
theorem decode_split_iff (mtu : Nat) (decodeFrameBinary : σ → Bytes → σ × Bool)
    (fs : List ClientFrame) (hmtu : ∀ f ∈ fs, f.size ≤ mtu) (cs : List Bytes)
    (hcs : cs.flatten = streamBytes fs) (s : σ) :
    (∀ stale, decodeReads mtu decodeFrameBinary [(streamBytes fs, stale)] [] s =
        some (handOver decodeFrameBinary (fs.map (·.payload)) s)) ∧
      ((∀ s payload, (decodeFrameBinary s payload).2 = true) →
        (handOver decodeFrameBinary (fs.map (·.payload)) s).accepted = true ∧
          (handOver decodeFrameBinary (fs.map (·.payload)) s).frames = fs.map (·.payload)) ∧
      ((∀ reads : List (Bytes × Bytes), reads.map (·.1) = cs →
        decodeReads mtu decodeFrameBinary reads [] s =
          some (handOver decodeFrameBinary (fs.map (·.payload)) s)) ↔
        SplitSafe mtu decodeFrameBinary fs cs s) := by
  refine ⟨?_, ?_, ?_, ?_⟩
  · intro stale
    exact decodeReads_of_splitSafe hmtu (List.flatten_singleton ..) splitSafe_whole rfl
  · intro haccept
    have haccepted : (handOver decodeFrameBinary (fs.map (·.payload)) s).accepted = true :=
      handOver_accepted haccept
    exact ⟨haccepted, handOver_frames haccepted⟩
  · exact splitSafe_of_reads hmtu hcs
  · intro hsafe reads hmap
    exact decodeReads_of_splitSafe hmtu hcs hsafe hmap

end Split

/-- A worker whose mtu holds every 16-bit length decodes every split. -/
theorem splitSafe_of_mtu {mtu : Nat} (hmtu : 8 + 65535 ≤ mtu)
    (decodeFrameBinary : σ → Bytes → σ × Bool) (fs : List ClientFrame) (cs : List Bytes)
    (s : σ) : SplitSafe mtu decodeFrameBinary fs cs s := by
  intro cs₁ cs₂ _ fs₁ f fs₂ _ _ _
  have hhigh : 256 * (f.payload.length / 256) + 255 ≤ 65535 := by
    have hlong := f.long
    omega
  exact ⟨fun _ => hmtu, fun _ => Nat.le_trans (Nat.add_le_add_left hhigh 8) hmtu⟩

/-- The payload `ab`, masked, with its length in the 16-bit form. -/
def ClientFrame.sample : ClientFrame where
  fst := 0x82
  ext := true
  mask := [1, 2, 3, 4]
  payload := [97, 98]
  fin := by decide
  opcode := by decide
  mask_length := rfl
  pos := by decide
  short := by decide
  long := by decide

/-- The sample frame, split between its two length bytes, with 0xFF behind the first read. -/
theorem decode_split_iff_sample :
    decodeReads 65543 (fun (_ : Unit) _ => ((), true))
        [([0x82, 0xFE, 0], [0xFF]), ([2, 1, 2, 3, 4, 0x60, 0x60], [])] [] () =
      some ⟨true, [[97, 98]], ()⟩ := by
  have hmtu : ∀ f ∈ [ClientFrame.sample], f.size ≤ 65543 := by
    simp [ClientFrame.size, ClientFrame.sample]
  exact (decode_split_iff 65543 (fun (_ : Unit) _ => ((), true)) [ClientFrame.sample] hmtu
    [[0x82, 0xFE, 0], [2, 1, 2, 3, 4, 0x60, 0x60]] (by decide) ()).2.2.mpr
    (splitSafe_of_mtu (by decide) _ _ _ _) _ rfl

/-- The sample frame on a worker with an mtu of 100: split after its second byte, it is
rejected or not by the bytes behind the first read. -/
theorem decode_split_rejects_sample :
    streamBytes [ClientFrame.sample] = [0x82, 0xFE] ++ [0, 2, 1, 2, 3, 4, 0x60, 0x60] ∧
      decodeReads 100 (fun (_ : Unit) _ => ((), true))
          [([0x82, 0xFE, 0, 2, 1, 2, 3, 4, 0x60, 0x60], [0xFF, 0xFF])] [] () =
        some ⟨true, [[97, 98]], ()⟩ ∧
      decodeReads 100 (fun (_ : Unit) _ => ((), true))
          [([0x82, 0xFE], [0, 0]), ([0, 2, 1, 2, 3, 4, 0x60, 0x60], [])] [] () =
        some ⟨true, [[97, 98]], ()⟩ ∧
      decodeReads 100 (fun (_ : Unit) _ => ((), true))
          [([0x82, 0xFE], [0xFF, 0xFF]), ([0, 2, 1, 2, 3, 4, 0x60, 0x60], [])] [] () =
        some ⟨false, [], ()⟩ := by
  refine ⟨by decide, by decide, by decide, by decide⟩

end XmsgImXsc
