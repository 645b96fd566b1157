/-
# XmsgImXsc.HttpRsp -- the response message on the wire

The class generated for the response message of the HTTP transport, over the protocol-buffer
runtime it is compiled against.  Appending a serialized message to a stream merges it into
what the stream holds (`parse_append_serialize`); a serialized message is read back exactly
when its texts are UTF-8 (`parse_serialize`); and whatever is accepted has a canonical
form no longer than itself (`serialize_parse`).
-/
import XmsgImXsc.PassiveEnd
import XmsgImXsc.Lib.Wire

namespace XmsgImXsc

open Wire (Runtime varint delimited)

variable {U : Type}

/-- The generated class: strings are bytes, and fields it does not know are kept. -/
structure XmsgImHttpRspPb (U : Type) where
  ret : UInt32 := 0
  desc : Bytes := []
  msg : Bytes := []
  dat : Bytes := []
  unknownFields : List U := []
  deriving Repr, DecidableEq

namespace XmsgImHttpRspPb

/-! ## The generated functions

`serialize` writes the fields in the order of their numbers and leaves out those that have
their default value.  Parsing is a loop over tags; the fields may come in any order and more
than once, and the last value counts. -/

/-- `MergeFrom`. -/
def mergeFrom (m source : XmsgImHttpRspPb U) : XmsgImHttpRspPb U where
  unknownFields := m.unknownFields ++ source.unknownFields
  desc := if 0 < source.desc.length then source.desc else m.desc
  msg := if 0 < source.msg.length then source.msg else m.msg
  dat := if 0 < source.dat.length then source.dat else m.dat
  ret := if source.ret ≠ 0 then source.ret else m.ret

/-- `SerializeWithCachedSizes`; `preserve` is `GetProto3PreserveUnknownsDefault()`.  A text
that is not UTF-8 is reported and written all the same. -/
def serialize (W : Runtime U) (preserve : Bool) (m : XmsgImHttpRspPb U) : Bytes :=
  (if m.ret ≠ 0 then W.writeUInt32 1 m.ret else []) ++
  (if 0 < m.desc.length then W.writeBytes 2 m.desc else []) ++
  (if 0 < m.msg.length then W.writeBytes 3 m.msg else []) ++
  (if 0 < m.dat.length then W.writeBytes 4 m.dat else []) ++
  (if m.unknownFields ≠ [] ∧ preserve then m.unknownFields.flatMap W.writeUnknown else [])

/-- `ByteSizeLong`. -/
def byteSizeLong (W : Runtime U) (preserve : Bool) (m : XmsgImHttpRspPb U) : Nat :=
  (if m.unknownFields ≠ [] ∧ preserve then (m.unknownFields.map W.unknownSize).sum else 0) +
  (if 0 < m.desc.length then 1 + W.bytesSize m.desc else 0) +
  (if 0 < m.msg.length then 1 + W.bytesSize m.msg else 0) +
  (if 0 < m.dat.length then 1 + W.bytesSize m.dat else 0) +
  (if m.ret ≠ 0 then 1 + W.uInt32Size m.ret else 0)

/-- Where the switch on a tag goes. -/
inductive FieldCase where
  | ret
  | desc
  | msg
  | dat
  | unusual
  deriving Repr, DecidableEq

/-- The cutoff of `ReadTagWithCutoffNoLastTag(127)` and the switch on the field number, with
the comparison of the tag's low byte in each case. -/
def fieldCase (tag : Nat) : FieldCase :=
  if 0 < tag ∧ tag ≤ 127 then
    match tag / 8 with
    | 1 => if tag % 256 = 8 then .ret else .unusual
    | 2 => if tag % 256 = 18 then .desc else .unusual
    | 3 => if tag % 256 = 26 then .msg else .unusual
    | 4 => if tag % 256 = 34 then .dat else .unusual
    | _ => .unusual
  else .unusual

/-- How one pass of the parse loop ends. -/
inductive ParseStep (U : Type) where
  | success
  | failure
  | next (m : XmsgImHttpRspPb U) (rest : Bytes)
  deriving Repr, DecidableEq

/-- `ReadString` and `VerifyUtf8String` into the field that `set` sets. -/
def readText (W : Runtime U) (input : Bytes) (set : Bytes → XmsgImHttpRspPb U) :
    ParseStep U :=
  match W.readBytes input with
  | none => .failure
  | some (s, r) => if W.verifyUtf8 s then .next (set s) r else .failure

/-- One pass of the loop of `MergePartialFromCodedStream`. -/
def parseStep (W : Runtime U) (m : XmsgImHttpRspPb U) (b : Bytes) : ParseStep U :=
  let tag := (W.readTag b).1
  let input := (W.readTag b).2
  match fieldCase tag with
  | .ret =>
      match W.readUInt32 input with
      | none => .failure
      | some (v, r) => .next { m with ret := v } r
  | .desc => readText W input fun s => { m with desc := s }
  | .msg => readText W input fun s => { m with msg := s }
  | .dat =>
      match W.readBytes input with
      | none => .failure
      | some (s, r) => .next { m with dat := s } r
  | .unusual =>
      if tag = 0 then .success
      else
        match W.skipField tag input with
        | none => .failure
        | some (f, r) => .next { m with unknownFields := m.unknownFields ++ [f] } r

/-- A text is stored when it could be read and is UTF-8. -/
theorem readText_next {W : Runtime U} {input r : Bytes} {set : Bytes → XmsgImHttpRspPb U}
    {m' : XmsgImHttpRspPb U} (h : readText W input set = .next m' r) :
    ∃ s, W.readBytes input = some (s, r) ∧ W.verifyUtf8 s = true ∧ m' = set s := by
  unfold readText at h
  split at h
  · cases h
  · rename_i s r' hread
    split at h
    · rename_i hutf
      cases h
      exact ⟨s, hread, hutf, rfl⟩
    · cases h

/-- What a pass that goes on has read, and where it stored it. -/
inductive Stored (W : Runtime U) (m : XmsgImHttpRspPb U) (b : Bytes) :
    XmsgImHttpRspPb U → Bytes → Prop where
  | ret {v r} (htag : fieldCase (W.readTag b).1 = .ret)
      (hread : W.readUInt32 (W.readTag b).2 = some (v, r)) : Stored W m b { m with ret := v } r
  | desc {s r} (htag : fieldCase (W.readTag b).1 = .desc)
      (hread : W.readBytes (W.readTag b).2 = some (s, r)) (hutf : W.verifyUtf8 s = true) :
      Stored W m b { m with desc := s } r
  | msg {s r} (htag : fieldCase (W.readTag b).1 = .msg)
      (hread : W.readBytes (W.readTag b).2 = some (s, r)) (hutf : W.verifyUtf8 s = true) :
      Stored W m b { m with msg := s } r
  | dat {s r} (htag : fieldCase (W.readTag b).1 = .dat)
      (hread : W.readBytes (W.readTag b).2 = some (s, r)) : Stored W m b { m with dat := s } r
  | unknown {f r} (htag : fieldCase (W.readTag b).1 = .unusual) (hne : (W.readTag b).1 ≠ 0)
      (hread : W.skipField (W.readTag b).1 (W.readTag b).2 = some (f, r)) :
      Stored W m b { m with unknownFields := m.unknownFields ++ [f] } r

/-- A round of the loop goes on exactly with what it has stored. -/
theorem parseStep_next_iff {W : Runtime U} {m m' : XmsgImHttpRspPb U} {b r : Bytes} :
    parseStep W m b = .next m' r ↔ Stored W m b m' r := by
  constructor
  · intro h
    simp only [parseStep] at h
    split at h
    case h_1 htag =>
      split at h <;> cases h
      exact .ret htag ‹_›
    case h_2 htag =>
      obtain ⟨s, hread, hutf, rfl⟩ := readText_next h
      exact .desc htag hread hutf
    case h_3 htag =>
      obtain ⟨s, hread, hutf, rfl⟩ := readText_next h
      exact .msg htag hread hutf
    case h_4 htag =>
      split at h <;> cases h
      exact .dat htag ‹_›
    case h_5 htag =>
      split at h
      · cases h
      · rename_i hne
        split at h <;> cases h
        exact .unknown htag hne ‹_›
  · intro h
    cases h with
    | ret htag hread => simp [parseStep, htag, hread]
    | desc htag hread hutf => simp [parseStep, htag, readText, hread, hutf]
    | msg htag hread hutf => simp [parseStep, htag, readText, hread, hutf]
    | dat htag hread => simp [parseStep, htag, hread]
    | unknown htag hne hread => simp [parseStep, htag, hne, hread]

/-- A tag of zero ends the message and stores nothing. -/
theorem Stored.tag_ne_zero {W : Runtime U} {m m' : XmsgImHttpRspPb U} {b r : Bytes}
    (h : Stored W m b m' r) : (W.readTag b).1 ≠ 0 := by
  intro h0
  cases h with
  | unknown htag hne hread => exact hne h0
  | ret htag hread | desc htag hread hutf | msg htag hread hutf | dat htag hread =>
      rw [h0] at htag
      cases htag

/-- A pass that goes on has consumed input. -/
theorem Stored.rest_lt {W : Runtime U} {m m' : XmsgImHttpRspPb U} {b r : Bytes}
    (h : Stored W m b m' r) : r.length < b.length := by
  have hlt := W.readTag_lt h.tag_ne_zero
  cases h with
  | ret htag hread => have := W.readUInt32_le hread; omega
  | desc htag hread hutf => have := W.readBytes_le hread; omega
  | msg htag hread hutf => have := W.readBytes_le hread; omega
  | dat htag hread => have := W.readBytes_le hread; omega
  | unknown htag hne hread => have := W.skipField_le hread; omega

/-- `MergePartialFromCodedStream`: the message and the input at which no tag was found. -/
def mergePartialFromCodedStream (W : Runtime U) (m : XmsgImHttpRspPb U) (b : Bytes) :
    Option (XmsgImHttpRspPb U × Bytes) :=
  match _h : parseStep W m b with
  | .success => some (m, b)
  | .failure => none
  | .next m' r => mergePartialFromCodedStream W m' r
termination_by b.length
decreasing_by exact (parseStep_next_iff.mp _h).rest_lt

/-- `ParseFromString`: from a cleared message, and the whole input must be consumed. -/
def parse (W : Runtime U) (b : Bytes) : Option (XmsgImHttpRspPb U) :=
  match mergePartialFromCodedStream W {} b with
  | some (m, []) => some m
  | _ => none

/-! ## The loop

A round either stops, or stores a field and goes on with fewer bytes.  `Stored` says what a
round can store; what follows is by induction over the rounds, with its five cases. -/

section Loop

variable {W : Runtime U} {m m' : XmsgImHttpRspPb U} {b r : Bytes}

theorem parseStep_of_tag_zero (h : (W.readTag b).1 = 0) : parseStep W m b = .success := by
  have hcase : fieldCase 0 = .unusual := rfl
  simp [parseStep, h, hcase]

theorem merge_success (h : parseStep W m b = .success) :
    mergePartialFromCodedStream W m b = some (m, b) := by
  rw [mergePartialFromCodedStream]
  split <;> simp_all

theorem merge_failure (h : parseStep W m b = .failure) :
    mergePartialFromCodedStream W m b = none := by
  rw [mergePartialFromCodedStream]
  split <;> simp_all

/-- The loop goes on with the message and the bytes that a round leaves. -/
theorem merge_next (h : Stored W m b m' r) :
    mergePartialFromCodedStream W m b = mergePartialFromCodedStream W m' r := by
  have hstep := parseStep_next_iff.mpr h
  rw [mergePartialFromCodedStream]
  split <;> simp_all

/-- The end of the input ends the loop. -/
theorem merge_nil (hW : W.Documented) :
    mergePartialFromCodedStream W m [] = some (m, []) :=
  merge_success (parseStep_of_tag_zero (by rw [hW.readTag_nil]))

/-- A pass does not look past the field it stores. -/
theorem Stored.append (hW : W.Documented) (h : Stored W m b m' r) (c : Bytes)
    (hlen : (b ++ c).length ≤ W.limit) : Stored W m (b ++ c) m' (r ++ c) := by
  have htag := hW.readTag_append c h.tag_ne_zero hlen
  have hinput : ((W.readTag b).2 ++ c).length ≤ W.limit := by
    have := W.readTag_lt h.tag_ne_zero
    simp only [List.length_append] at hlen ⊢
    omega
  cases h with
  | ret hcase hread =>
      exact .ret (by rw [htag]; exact hcase)
        (by rw [htag]; exact hW.readUInt32_append c hread hinput)
  | desc hcase hread hutf =>
      exact .desc (by rw [htag]; exact hcase)
        (by rw [htag]; exact hW.readBytes_append c hread hinput) hutf
  | msg hcase hread hutf =>
      exact .msg (by rw [htag]; exact hcase)
        (by rw [htag]; exact hW.readBytes_append c hread hinput) hutf
  | dat hcase hread =>
      exact .dat (by rw [htag]; exact hcase)
        (by rw [htag]; exact hW.readBytes_append c hread hinput)
  | unknown hcase hne hread =>
      exact .unknown (by rw [htag]; exact hcase) (by rw [htag]; exact hne)
        (by rw [htag]; exact hW.skipField_append c hread hinput)

/-- Input that was consumed whole can be followed by more. -/
theorem merge_append (hW : W.Documented) (c : Bytes) (hlen : (b ++ c).length ≤ W.limit)
    (h : mergePartialFromCodedStream W m b = some (m', [])) :
    mergePartialFromCodedStream W m (b ++ c) = mergePartialFromCodedStream W m' c := by
  induction m, b using mergePartialFromCodedStream.induct W with
  | case1 m b hstep =>
      rw [merge_success hstep] at h
      obtain ⟨rfl, rfl⟩ := by simpa using h
      rfl
  | case2 m b hstep => simp [merge_failure hstep] at h
  | case3 m b m₁ r hstep ih =>
      have hs := parseStep_next_iff.mp hstep
      have hrest : (r ++ c).length ≤ W.limit := by
        have := hs.rest_lt
        simp only [List.length_append] at hlen ⊢
        omega
      rw [merge_next hs] at h
      rw [merge_next (hs.append hW c hlen)]
      exact ih hrest h

end Loop

/-! ## Reading what was written

Every field is read back by one round, or by one round for each unknown field.  The texts are
verified as UTF-8 when they are read but not when they are written, so one that is not UTF-8 is
sent and makes the whole message fail. -/

/-- A text field is empty, hence not written, or holds UTF-8. -/
def TextOk (W : Runtime U) (s : Bytes) : Prop := s = [] ∨ W.verifyUtf8 s = true

instance (W : Runtime U) (s : Bytes) : Decidable (TextOk W s) := by
  unfold TextOk
  infer_instance

/-- A field the loop has passed over. -/
def Skipped (W : Runtime U) (f : U) : Prop :=
  ∃ tag b r, tag ≠ 0 ∧ fieldCase tag = .unusual ∧ W.skipField tag b = some (f, r)

/-- The message as it is written: without the unknown fields unless they are preserved. -/
def kept (preserve : Bool) (m : XmsgImHttpRspPb U) : XmsgImHttpRspPb U :=
  { m with unknownFields := if preserve then m.unknownFields else [] }

section Written

variable {W : Runtime U} (hW : W.Documented) {m : XmsgImHttpRspPb U} {rest : Bytes}

include hW

theorem merge_ret {v : UInt32}
    (hlen : ((if v ≠ 0 then W.writeUInt32 1 v else []) ++ rest).length ≤ W.limit) :
    mergePartialFromCodedStream W m ((if v ≠ 0 then W.writeUInt32 1 v else []) ++ rest) =
      mergePartialFromCodedStream W { m with ret := if v ≠ 0 then v else m.ret } rest := by
  split
  · rename_i hv
    rw [if_pos hv, hW.writeUInt32_eq, List.append_assoc] at hlen
    have htag := hW.readTag_varint (varint v.toNat ++ rest) (by decide) (by decide) hlen
    have hrest : (varint v.toNat ++ rest).length ≤ W.limit := by
      rw [List.length_append] at hlen
      omega
    rw [hW.writeUInt32_eq, List.append_assoc]
    have hcase : fieldCase (1 * 8) = .ret := rfl
    exact merge_next (.ret (by rw [htag]; exact hcase)
      (by rw [htag]; exact hW.readUInt32_varint v rest hrest))
  · rfl

/-- The tag and the string of a field that was written are read back. -/
theorem read_writeBytes {number : Nat} {s : Bytes} (hlo : 1 ≤ number) (hhi : number < 16)
    (hlen : (W.writeBytes number s ++ rest).length ≤ W.limit) :
    (W.readTag (W.writeBytes number s ++ rest)).1 = number * 8 + 2 ∧
      W.readBytes (W.readTag (W.writeBytes number s ++ rest)).2 = some (s, rest) := by
  rw [hW.writeBytes_eq, List.append_assoc] at hlen ⊢
  have htag := hW.readTag_varint (delimited s ++ rest) (by omega) (by omega) hlen
  have hrest : (delimited s ++ rest).length ≤ W.limit := by
    rw [List.length_append] at hlen
    omega
  rw [htag]
  exact ⟨rfl, hW.readBytes_delimited s rest hrest⟩

/-- A text field that was written: what follows is read if the text is UTF-8. -/
theorem merge_text {number : Nat} {s : Bytes} {f : Bytes → XmsgImHttpRspPb U}
    (hlo : 1 ≤ number) (hhi : number < 16)
    (hstep : ∀ b, (W.readTag b).1 = number * 8 + 2 →
      parseStep W m b = readText W (W.readTag b).2 f)
    (hlen : ((if 0 < s.length then W.writeBytes number s else []) ++ rest).length ≤ W.limit) :
    mergePartialFromCodedStream W m
        ((if 0 < s.length then W.writeBytes number s else []) ++ rest) =
      if TextOk W s then
        mergePartialFromCodedStream W (if 0 < s.length then f s else m) rest
      else none := by
  by_cases hs : 0 < s.length
  · have hne : s ≠ [] := List.length_pos_iff.mp hs
    rw [if_pos hs] at hlen ⊢
    obtain ⟨htag, hread⟩ := read_writeBytes hW hlo hhi hlen
    have hpass := hstep _ htag
    rw [readText, hread] at hpass
    by_cases hutf : W.verifyUtf8 s = true
    · rw [if_pos (.inr hutf), if_pos hs]
      exact merge_next (parseStep_next_iff.mp (by simpa [hutf] using hpass))
    · rw [if_neg (by simp [TextOk, hne, hutf])]
      exact merge_failure (by simpa [hutf] using hpass)
  · have hnil : s = [] := List.eq_nil_of_length_eq_zero (by omega)
    subst hnil
    simp [TextOk]

theorem merge_desc {s : Bytes}
    (hlen : ((if 0 < s.length then W.writeBytes 2 s else []) ++ rest).length ≤ W.limit) :
    mergePartialFromCodedStream W m
        ((if 0 < s.length then W.writeBytes 2 s else []) ++ rest) =
      if TextOk W s then
        mergePartialFromCodedStream W
          { m with desc := if 0 < s.length then s else m.desc } rest
      else none := by
  have hcase : fieldCase (2 * 8 + 2) = .desc := rfl
  rw [merge_text hW (f := fun s => { m with desc := s }) (by decide) (by decide)
    (fun b htag => by simp [parseStep, htag, hcase]) hlen]
  by_cases hs : 0 < s.length
  · simp only [if_pos hs]
  · simp only [if_neg hs]

theorem merge_msg {s : Bytes}
    (hlen : ((if 0 < s.length then W.writeBytes 3 s else []) ++ rest).length ≤ W.limit) :
    mergePartialFromCodedStream W m
        ((if 0 < s.length then W.writeBytes 3 s else []) ++ rest) =
      if TextOk W s then
        mergePartialFromCodedStream W
          { m with msg := if 0 < s.length then s else m.msg } rest
      else none := by
  have hcase : fieldCase (3 * 8 + 2) = .msg := rfl
  rw [merge_text hW (f := fun s => { m with msg := s }) (by decide) (by decide)
    (fun b htag => by simp [parseStep, htag, hcase]) hlen]
  by_cases hs : 0 < s.length
  · simp only [if_pos hs]
  · simp only [if_neg hs]

theorem merge_dat {s : Bytes}
    (hlen : ((if 0 < s.length then W.writeBytes 4 s else []) ++ rest).length ≤ W.limit) :
    mergePartialFromCodedStream W m
        ((if 0 < s.length then W.writeBytes 4 s else []) ++ rest) =
      mergePartialFromCodedStream W
        { m with dat := if 0 < s.length then s else m.dat } rest := by
  split
  · rename_i hs
    rw [if_pos hs] at hlen
    obtain ⟨htag, hread⟩ := read_writeBytes hW (by decide) (by decide) hlen
    exact merge_next (.dat (by rw [htag]; rfl) hread)
  · rfl

/-- Unknown fields are collected in their order. -/
theorem merge_unknownFields {fs : List U} (hfs : ∀ f ∈ fs, Skipped W f)
    (hlen : (fs.flatMap W.writeUnknown ++ rest).length ≤ W.limit) :
    mergePartialFromCodedStream W m (fs.flatMap W.writeUnknown ++ rest) =
      mergePartialFromCodedStream W
        { m with unknownFields := m.unknownFields ++ fs } rest := by
  induction fs generalizing m with
  | nil => simp
  | cons f fs ih =>
      obtain ⟨tag, b, r, hne, hcase, hskip⟩ := hfs f List.mem_cons_self
      rw [List.flatMap_cons, List.append_assoc] at hlen ⊢
      obtain ⟨b', htag, hread⟩ := hW.skipField_written _ hskip hlen
      have hrest : (fs.flatMap W.writeUnknown ++ rest).length ≤ W.limit := by
        rw [List.length_append] at hlen
        omega
      have hstored : Stored W m
          (W.writeUnknown f ++ (fs.flatMap W.writeUnknown ++ rest))
          { m with unknownFields := m.unknownFields ++ [f] }
          (fs.flatMap W.writeUnknown ++ rest) :=
        .unknown (by rw [htag]; exact hcase) (by rw [htag]; exact hne)
          (by rw [htag]; exact hread)
      rw [merge_next hstored, ih (fun f hf => hfs f (List.mem_cons_of_mem _ hf)) hrest]
      simp

theorem merge_unknown {preserve : Bool} {fs : List U} (hfs : ∀ f ∈ fs, Skipped W f)
    (hlen : ((if fs ≠ [] ∧ preserve then fs.flatMap W.writeUnknown else []) ++ rest).length
      ≤ W.limit) :
    mergePartialFromCodedStream W m
        ((if fs ≠ [] ∧ preserve then fs.flatMap W.writeUnknown else []) ++ rest) =
      mergePartialFromCodedStream W
        { m with unknownFields := m.unknownFields ++ if preserve then fs else [] } rest := by
  cases preserve with
  | false => simp
  | true =>
      by_cases hnil : fs = []
      · subst hnil
        simp
      · rw [if_pos ⟨hnil, rfl⟩] at hlen ⊢
        exact merge_unknownFields hW hfs hlen

/-- Reading a written message and what follows it: the message is merged, unless a text of
it is not UTF-8. -/
theorem merge_serialize {preserve : Bool} {source : XmsgImHttpRspPb U}
    (hfs : ∀ f ∈ source.unknownFields, Skipped W f)
    (hlen : (source.serialize W preserve ++ rest).length ≤ W.limit) :
    mergePartialFromCodedStream W m (source.serialize W preserve ++ rest) =
      if TextOk W source.desc ∧ TextOk W source.msg then
        mergePartialFromCodedStream W (m.mergeFrom (source.kept preserve)) rest
      else none := by
  simp only [serialize, List.append_assoc] at hlen ⊢
  have hdesc := Nat.le_trans (List.length_append ▸ Nat.le_add_left _ _) hlen
  have hmsg := Nat.le_trans (List.length_append ▸ Nat.le_add_left _ _) hdesc
  have hdat := Nat.le_trans (List.length_append ▸ Nat.le_add_left _ _) hmsg
  have hunknown := Nat.le_trans (List.length_append ▸ Nat.le_add_left _ _) hdat
  rw [merge_ret hW hlen, merge_desc hW hdesc]
  by_cases htd : TextOk W source.desc
  · rw [if_pos htd, merge_msg hW hmsg]
    by_cases htm : TextOk W source.msg
    · have htexts : TextOk W source.desc ∧ TextOk W source.msg := ⟨htd, htm⟩
      rw [if_pos htm, if_pos htexts, merge_dat hW hdat, merge_unknown hW hfs hunknown]
      rfl
    · rw [if_neg htm, if_neg fun h => htm h.2]
  · rw [if_neg htd, if_neg fun h => htd h.1]

end Written

/-- The loop has to consume everything. -/
theorem parse_eq_some_iff {W : Runtime U} {b : Bytes} {m : XmsgImHttpRspPb U} :
    parse W b = some m ↔ mergePartialFromCodedStream W {} b = some (m, []) := by
  unfold parse
  split
  · rename_i m' hmerge
    rw [hmerge]
    simp
  · rename_i hne
    constructor
    · intro h
      cases h
    · intro h
      exact absurd h (hne m)

theorem parse_nil {W : Runtime U} (hW : W.Documented) : parse W [] = some {} :=
  parse_eq_some_iff.mpr (merge_nil hW)

theorem mergeFrom_default (m : XmsgImHttpRspPb U) :
    ({} : XmsgImHttpRspPb U).mergeFrom m = m := by
  obtain ⟨ret, desc, msg, dat, fs⟩ := m
  simp only [mergeFrom, List.nil_append, XmsgImHttpRspPb.mk.injEq, and_true]
  refine ⟨?_, ?_, ?_, ?_⟩
  · split <;> simp_all
  · cases desc <;> rfl
  · cases msg <;> rfl
  · cases dat <;> rfl

/-- The sample texts are UTF-8, the sample field is one of a later version of the message. -/
def sample : XmsgImHttpRspPb Wire.Field where
  ret := 300
  desc := Wire.utf8 "é"
  unknownFields := [{ tag := 40, payload := .varint 1 }]

theorem sample_skipped : ∀ f ∈ sample.unknownFields, Skipped Wire.reference f := by
  intro f hf
  obtain rfl := List.mem_singleton.mp hf
  exact ⟨40, [1], [], by decide, rfl, rfl⟩

theorem sample_serialize :
    sample.serialize Wire.reference true = [8, 172, 2, 18, 2, 195, 169, 40, 1] := by
  have hret : sample.ret.toNat = 300 := rfl
  have hdesc : sample.desc = [195, 169] := by decide
  have hvarint : varint 300 = [172, 2] := by
    rw [Wire.varint_large (by decide), Wire.varint_small (by decide)]
    rfl
  have hmsg : sample.msg = [] := rfl
  have hdat : sample.dat = [] := rfl
  have hfs : sample.unknownFields = [{ tag := 40, payload := .varint 1 }] := rfl
  have hne : sample.ret ≠ 0 := by decide
  simp [serialize, Wire.reference, delimited, Wire.Field.write, Wire.Payload.write,
    Wire.varint_small, hret, hdesc, hvarint, hmsg, hdat, hfs, hne]

/-- Appending a written message to accepted input merges it into what was read there,
unless a text of it is not UTF-8; then nothing is accepted. -/
theorem parse_append_serialize {W : Runtime U} (hW : W.Documented) (preserve : Bool)
    {a : Bytes} {m source : XmsgImHttpRspPb U} (ha : parse W a = some m)
    (hfs : ∀ f ∈ source.unknownFields, Skipped W f)
    (hlen : (a ++ source.serialize W preserve).length ≤ W.limit) :
    parse W (a ++ source.serialize W preserve) =
      if TextOk W source.desc ∧ TextOk W source.msg then
        some (m.mergeFrom (source.kept preserve))
      else none := by
  have hread := parse_eq_some_iff.mp ha
  have hsource : (source.serialize W preserve ++ []).length ≤ W.limit := by
    rw [List.length_append] at hlen
    simp only [List.append_nil]
    omega
  have hmerge := merge_serialize hW (m := m) hfs hsource
  rw [List.append_nil] at hmerge
  rw [parse, merge_append hW _ hlen hread, hmerge]
  by_cases htexts : TextOk W source.desc ∧ TextOk W source.msg
  · rw [if_pos htexts, if_pos htexts, merge_nil hW]
  · rw [if_neg htexts, if_neg htexts]

/-- Two messages in one stream: the later text and number stand, and both fields that are
not known are kept. -/
theorem parse_append_serialize_sample :
    parse Wire.reference
        (sample.serialize Wire.reference true ++ sample.serialize Wire.reference true) =
      some { sample with unknownFields := sample.unknownFields ++ sample.unknownFields } := by
  have hW := Wire.reference_documented
  have htexts : TextOk Wire.reference sample.desc ∧ TextOk Wire.reference sample.msg :=
    ⟨.inr (hW.verifyUtf8_text "é"), .inl rfl⟩
  have hfirst := parse_append_serialize hW true (parse_nil hW) sample_skipped
    (by rw [sample_serialize]; decide)
  rw [if_pos htexts, List.nil_append, mergeFrom_default] at hfirst
  have hboth := parse_append_serialize hW true hfirst sample_skipped
    (by rw [sample_serialize]; decide)
  rw [hboth, if_pos htexts]
  rfl

/-- A written message is read back if its texts are UTF-8, and rejected if not. -/
theorem parse_serialize {W : Runtime U} (hW : W.Documented) (preserve : Bool)
    {m : XmsgImHttpRspPb U} (hfs : ∀ f ∈ m.unknownFields, Skipped W f)
    (hlen : (m.serialize W preserve).length ≤ W.limit) :
    parse W (m.serialize W preserve) =
      if TextOk W m.desc ∧ TextOk W m.msg then some (m.kept preserve) else none := by
  have hnil : (m.serialize W preserve ++ []).length ≤ W.limit := by
    rw [List.append_nil]
    exact hlen
  have hmerge := merge_serialize hW (m := {}) hfs hnil
  rw [List.append_nil, mergeFrom_default] at hmerge
  rw [parse, hmerge]
  by_cases htexts : TextOk W m.desc ∧ TextOk W m.msg
  · rw [if_pos htexts, if_pos htexts, merge_nil hW]
  · rw [if_neg htexts, if_neg htexts]

/-! ## The canonical form

What was parsed has texts that are UTF-8 and unknown fields that the runtime can skip, so it
is read back from its own serialization.  That is never longer than what it was parsed
from: a varint can be written longer than necessary, but not shorter. -/

/-- What every accepted message satisfies. -/
structure Accepted (W : Runtime U) (m : XmsgImHttpRspPb U) : Prop where
  desc : TextOk W m.desc
  msg : TextOk W m.msg
  unknownFields : ∀ f ∈ m.unknownFields, Skipped W f

/-- What is stored was verified. -/
theorem Stored.accepted {W : Runtime U} {m m' : XmsgImHttpRspPb U} {b r : Bytes}
    (h : Stored W m b m' r) (hm : Accepted W m) : Accepted W m' := by
  cases h with
  | ret htag hread | dat htag hread => exact ⟨hm.desc, hm.msg, hm.unknownFields⟩
  | desc htag hread hutf => exact ⟨.inr hutf, hm.msg, hm.unknownFields⟩
  | msg htag hread hutf => exact ⟨hm.desc, .inr hutf, hm.unknownFields⟩
  | unknown htag hne hread =>
      refine ⟨hm.desc, hm.msg, ?_⟩
      intro f hf
      rcases List.mem_append.mp hf with hold | hnew
      · exact hm.unknownFields f hold
      · obtain rfl := List.mem_singleton.mp hnew
        exact ⟨_, _, _, hne, htag, hread⟩

theorem optional_le (c : Prop) [Decidable c] (n : Nat) : (if c then n else 0) ≤ n := by
  split <;> omega

theorem byteSizeLong_true {W : Runtime U} (m : XmsgImHttpRspPb U) :
    m.byteSizeLong W true = (m.unknownFields.map W.unknownSize).sum +
      (if 0 < m.desc.length then 1 + W.bytesSize m.desc else 0) +
      (if 0 < m.msg.length then 1 + W.bytesSize m.msg else 0) +
      (if 0 < m.dat.length then 1 + W.bytesSize m.dat else 0) +
      (if m.ret ≠ 0 then 1 + W.uInt32Size m.ret else 0) := by
  unfold byteSizeLong
  cases m.unknownFields <;> simp

/-- Leaving the unknown fields out makes nothing longer. -/
theorem byteSizeLong_le {W : Runtime U} (preserve : Bool)
    (m : XmsgImHttpRspPb U) :
    m.byteSizeLong W preserve ≤ m.byteSizeLong W true := by
  cases preserve with
  | true => exact Nat.le_refl _
  | false => simp [byteSizeLong]

section Size

variable {W : Runtime U} (hW : W.Documented) {m m' : XmsgImHttpRspPb U} {b r : Bytes}

include hW

/-- `ByteSizeLong` is the number of bytes that are written. -/
theorem byteSizeLong_eq (preserve : Bool) (m : XmsgImHttpRspPb U) :
    m.byteSizeLong W preserve = (m.serialize W preserve).length := by
  have hret : (W.writeUInt32 1 m.ret).length = 1 + W.uInt32Size m.ret := by
    rw [hW.writeUInt32_eq, hW.uInt32Size_eq, Wire.varint_small (by decide)]
    simp [Nat.add_comm]
  have hbytes : ∀ number s, number < 15 →
      (W.writeBytes number s).length = 1 + W.bytesSize s := by
    intro number s hn
    rw [hW.writeBytes_eq, hW.bytesSize_eq, Wire.varint_small (by omega)]
    simp [Nat.add_comm]
  have hfs : (m.unknownFields.map W.unknownSize).sum =
      (m.unknownFields.flatMap W.writeUnknown).length := by
    rw [List.length_flatMap, funext hW.unknownSize_eq]
  simp only [byteSizeLong, serialize, List.length_append, apply_ite List.length,
    List.length_nil, hret, hbytes 2 m.desc (by decide), hbytes 3 m.msg (by decide),
    hbytes 4 m.dat (by decide), hfs]
  omega

/-- A pass adds to the size of the message no more than it takes from the input. -/
theorem Stored.size_le (h : Stored W m b m' r) :
    m'.byteSizeLong W true + r.length ≤ m.byteSizeLong W true + b.length := by
  have htag := hW.readTag_length h.tag_ne_zero
  have hpos := Wire.varint_length_pos (W.readTag b).1
  cases h with
  | @ret v r _ hread =>
      have hlen := hW.readUInt32_length hread
      have hnew := optional_le (v ≠ 0) (1 + W.uInt32Size v)
      rw [hW.uInt32Size_eq] at hnew
      simp only [byteSizeLong_true, hW.uInt32Size_eq]
      omega
  | @desc s r _ hread _ | @msg s r _ hread _ | @dat s r _ hread =>
      have hlen := hW.readBytes_length hread
      have hnew := optional_le (0 < s.length) (1 + W.bytesSize s)
      rw [hW.bytesSize_eq] at hnew
      simp only [byteSizeLong_true, hW.bytesSize_eq]
      omega
  | @unknown f r _ _ hread =>
      have hlen := hW.skipField_length hread
      have hsum : ((m.unknownFields ++ [f]).map W.unknownSize).sum =
          (m.unknownFields.map W.unknownSize).sum + (W.writeUnknown f).length := by
        simp [hW.unknownSize_eq]
      simp only [byteSizeLong_true, hsum]
      omega

/-- The invariant of the loop: what it has accepted is in form, and with what is still to
be read is no longer than the input was. -/
theorem merge_inv (hm : Accepted W m)
    (h : mergePartialFromCodedStream W m b = some (m', r)) :
    Accepted W m' ∧ m'.byteSizeLong W true + r.length ≤ m.byteSizeLong W true + b.length := by
  induction m, b using mergePartialFromCodedStream.induct W with
  | case1 m b hstep =>
      rw [merge_success hstep] at h
      obtain ⟨rfl, rfl⟩ := by simpa using h
      exact ⟨hm, Nat.le_refl _⟩
  | case2 m b hstep => simp [merge_failure hstep] at h
  | case3 m b m₁ r₁ hstep ih =>
      have hs := parseStep_next_iff.mp hstep
      rw [merge_next hs] at h
      obtain ⟨haccepted, hsize⟩ := ih (hs.accepted hm) h
      exact ⟨haccepted, hsize.trans (hs.size_le hW)⟩

/-- Whatever is accepted has a written form that is read back, of the size `ByteSizeLong`
says and no longer than what was accepted. -/
theorem serialize_parse (preserve : Bool) (hlen : b.length ≤ W.limit)
    (h : parse W b = some m) :
    parse W (m.serialize W preserve) = some (m.kept preserve) ∧
      (m.serialize W preserve).length = m.byteSizeLong W preserve ∧
      m.byteSizeLong W preserve ≤ b.length := by
  have hempty : Accepted W ({} : XmsgImHttpRspPb U) :=
    ⟨.inl rfl, .inl rfl, fun f hf => absurd hf List.not_mem_nil⟩
  obtain ⟨haccepted, hsize⟩ := merge_inv hW hempty (parse_eq_some_iff.mp h)
  have hzero : ({} : XmsgImHttpRspPb U).byteSizeLong W true = 0 := rfl
  have hle : m.byteSizeLong W preserve ≤ b.length := by
    have := byteSizeLong_le (W := W) preserve m
    rw [hzero, List.length_nil] at hsize
    omega
  have heq := byteSizeLong_eq hW preserve m
  refine ⟨?_, heq.symm, hle⟩
  rw [parse_serialize hW preserve haccepted.unknownFields (by omega),
    if_pos ⟨haccepted.desc, haccepted.msg⟩]

end Size

/-- A number written twice, the second time with a byte too many. -/
theorem parse_overlong :
    parse Wire.reference [8, 172, 2, 8, 135, 0] = some { ret := 7 } := by
  have hfirst : Stored Wire.reference {} [8, 172, 2, 8, 135, 0] { ret := 300 } [8, 135, 0] :=
    .ret rfl rfl
  have hsecond : Stored Wire.reference { ret := 300 } [8, 135, 0] { ret := 7 } [] := .ret rfl rfl
  apply parse_eq_some_iff.mpr
  rw [merge_next hfirst, merge_next hsecond]
  exact merge_nil Wire.reference_documented

theorem serialize_parse_overlong :
    let m : XmsgImHttpRspPb Wire.Field := { ret := 7 }
    parse Wire.reference (m.serialize Wire.reference true) = some m ∧
      (m.serialize Wire.reference true).length = m.byteSizeLong Wire.reference true ∧
      m.byteSizeLong Wire.reference true ≤ 6 :=
  serialize_parse Wire.reference_documented true (by decide) parse_overlong

end XmsgImHttpRspPb

/-! ## The answer to an HTTP request

What the closure of a passive transaction sends on an HTTP channel, as the client reads it. -/

/-- The message as the generated class holds it. -/
def XmsgImHttpRsp.toPb (rsp : XmsgImHttpRsp) : XmsgImHttpRspPb U where
  ret := rsp.ret
  desc := rsp.desc
  msg := rsp.msg
  dat := rsp.dat

/-- Both texts are UTF-8.  The code checks neither before it sends the response. -/
def XmsgImHttpRsp.TextsOk (W : Runtime U) (rsp : XmsgImHttpRsp) : Prop :=
  XmsgImHttpRspPb.TextOk W rsp.desc ∧ XmsgImHttpRspPb.TextOk W rsp.msg

instance (W : Runtime U) (rsp : XmsgImHttpRsp) : Decidable (rsp.TextsOk W) := by
  unfold XmsgImHttpRsp.TextsOk
  infer_instance

/-- What a client reads of the response: nothing when a text of it is not UTF-8. -/
def XmsgImHttpRsp.read (W : Runtime U) (rsp : XmsgImHttpRsp) : Option (XmsgImHttpRspPb U) :=
  if rsp.TextsOk W then some rsp.toPb else none

/-- The bytes of a response, if the event is one: `rsp.SerializeAsString()`. -/
def Out.sentBytes (W : Runtime U) (preserve : Bool) : Out → Option Bytes
  | .sendBin rsp => some (rsp.toPb.serialize W preserve)
  | _ => none

/-- The closure of an ended transaction sends one response, when the channel is up and the
transaction has not failed. -/
theorem sentBytes_endClosure {D M : Type} (W : Runtime U) (preserve : Bool) (K : XscProto)
    (pb : Protobuf D M) (est : Bool) (t : XmsgImTransPassive M) :
    (t.endClosure K pb .XSC_PROTOCOL_HTTP est).filterMap (Out.sentBytes W preserve) =
      if est = true ∧ t.ret ≠ K.RET_FAILURE then [(t.rsp pb).toPb.serialize W preserve]
      else [] := by
  rcases endClosure_cases K pb .XSC_PROTOCOL_HTTP est t with
    ⟨rfl, houts⟩ | ⟨rfl, hfail, houts⟩ | ⟨rfl, hok, houts⟩
  · rw [houts]
    rfl
  · have hnot : ¬ (true = true ∧ t.ret ≠ K.RET_FAILURE) := fun hcall => hcall.2 hfail
    rw [houts, if_neg hnot]
    cases t.lazyClose <;> rfl
  · have hanswers : true = true ∧ t.ret ≠ K.RET_FAILURE := ⟨rfl, hok⟩
    have hanswer : t.answer pb .XSC_PROTOCOL_HTTP = .sendBin (t.rsp pb) := rfl
    rw [houts, hanswer, if_pos hanswers]
    cases t.lazyClose <;> rfl

/-- A client that parses the bytes of a response has the response, or nothing when a text of
it is not UTF-8: such a text is written all the same and fails the parse. -/
theorem parse_response {W : Runtime U} (hW : W.Documented) (preserve : Bool)
    (rsp : XmsgImHttpRsp) (hlen : rsp.toPb.byteSizeLong W preserve ≤ W.limit) :
    XmsgImHttpRspPb.parse W (rsp.toPb.serialize W preserve) = rsp.read W := by
  have hread := XmsgImHttpRspPb.parse_serialize hW preserve (m := rsp.toPb)
    (fun f hf => absurd hf List.not_mem_nil)
    (by rw [← XmsgImHttpRspPb.byteSizeLong_eq hW]; exact hlen)
  have hkept : (rsp.toPb (U := U)).kept preserve = rsp.toPb := by
    cases preserve <;> rfl
  rw [hkept] at hread
  exact hread

/-- What the client reads of the end of its request, whichever end function was called and
whatever it was given.  On a channel that is up, and with another return code than failure,
one response is sent.  Its code, its description and its body are read when the description
and the type name are UTF-8, and nothing is read when one of them is not.  Else no response
is sent. -/
theorem http_answer_read {D M : Type} {W : Runtime U} (hW : W.Documented) (preserve : Bool)
    {pb : Protobuf D M} {pdu : XscProtoPdu} {t : XmsgImTransPassive M}
    (h : XmsgImTransPassive.Created pb pdu t) (K : XscProto)
    (call : XmsgImTransPassive.EndCall M) (est : Bool)
    (hlen : ((call.rsp K pb).toPb.byteSizeLong W preserve) ≤ W.limit) :
    (((t.endCall K call).endClosure K pb .XSC_PROTOCOL_HTTP est).filterMap
        (Out.sentBytes W preserve)).map (XmsgImHttpRspPb.parse W) =
      if est = true ∧ call.ret K ≠ K.RET_FAILURE then
        [if XmsgImHttpRspPb.TextOk W call.desc ∧ XmsgImHttpRspPb.TextOk W (call.body pb).1 then
          some (call.rsp K pb).toPb else none]
      else [] := by
  obtain ⟨hfresh, -⟩ := h.fresh
  have hrsp : (t.endCall K call).rsp pb = call.rsp K pb := hfresh.endCall_rsp K pb call
  rw [sentBytes_endClosure, XmsgImTransPassive.endCall_ret, hrsp]
  split
  · rw [List.map_singleton, parse_response hW preserve _ hlen]
    rfl
  · rfl

/-- The response to the sample request, with a description that is not ASCII. -/
theorem sampleResponse_toPb :
    ((XmsgImTransPassive.EndCall.endRetDesc 7 "é" none).rsp .sample samplePb).toPb =
      ({ ret := 7, desc := [195, 169] } : XmsgImHttpRspPb Wire.Field) := by decide

/-- A description of a few bytes fits into a message. -/
theorem sampleResponse_fits {desc : Text} (h : desc.length ≤ 2) :
    ((XmsgImTransPassive.EndCall.endRetDesc 7 desc none).rsp .sample samplePb).toPb.byteSizeLong
      Wire.reference true ≤ Wire.reference.limit := by
  have hsmall : desc.length < 128 := by omega
  have hsize : XmsgImHttpRspPb.byteSizeLong Wire.reference true { ret := 7, desc := desc } =
      (if 0 < desc.length then 1 + (1 + desc.length) else 0) + 2 := by
    simp [XmsgImHttpRspPb.byteSizeLong, Wire.reference, delimited, Wire.varint_small, hsmall]
  have hdesc := XmsgImHttpRspPb.optional_le (0 < desc.length) (1 + (1 + desc.length))
  have hlimit : 6 ≤ Wire.reference.limit := by decide
  show XmsgImHttpRspPb.byteSizeLong Wire.reference true { ret := 7, desc := desc } ≤ _
  omega

theorem sampleResponse_textsOk :
    ((XmsgImTransPassive.EndCall.endRetDesc 7 "é" none).rsp .sample samplePb).TextsOk
      Wire.reference :=
  ⟨.inr (Wire.reference_documented.verifyUtf8_text "é"), .inl rfl⟩

/-- A description that is UTF-8 is read, and one that is not is sent and not read. -/
theorem http_answer_read_sample :
    (((samplePassive.endCall .sample (.endRetDesc 7 "é" none)).endClosure .sample samplePb
        .XSC_PROTOCOL_HTTP true).filterMap
          (Out.sentBytes Wire.reference true)).map (XmsgImHttpRspPb.parse Wire.reference) =
      [some { ret := 7, desc := [195, 169] }] ∧
    (((samplePassive.endCall .sample (.endRetDesc 7 [0xFF] none)).endClosure .sample samplePb
        .XSC_PROTOCOL_HTTP true).filterMap
          (Out.sentBytes Wire.reference true)).map (XmsgImHttpRspPb.parse Wire.reference) =
      [none] := by
  constructor
  · have hread := http_answer_read Wire.reference_documented true samplePassive_created .sample
      (.endRetDesc 7 "é" none) true (sampleResponse_fits (by decide))
    rw [hread, sampleResponse_toPb, if_pos ⟨rfl, by decide⟩]
    exact congrArg (fun m => [m]) (if_pos sampleResponse_textsOk)
  · have hread := http_answer_read Wire.reference_documented true samplePassive_created .sample
      (.endRetDesc 7 [0xFF] none) true (sampleResponse_fits (by decide))
    rw [hread, if_pos ⟨rfl, by decide⟩, if_neg (fun htexts => absurd htexts.1 (by decide))]

end XmsgImXsc
