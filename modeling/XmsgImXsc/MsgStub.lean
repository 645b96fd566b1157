/-
# XmsgImXsc.MsgStub -- message stubs and reflection of protobuf messages

The protobuf runtime is not part of this repository.  `Protobuf D M` is the part of it the
library calls, for a type `D` of descriptors and a type `M` of messages.
-/
import XmsgImXsc.Pdu

namespace XmsgImXsc

/-- The protobuf runtime: descriptors, the generated pool and the message factory. -/
structure Protobuf (D M : Type) where
  /-- `Descriptor::name()`. -/
  name : D → Text
  /-- `Descriptor::full_name()`. -/
  fullName : D → Text
  /-- `DescriptorPool::generated_pool()->FindMessageTypeByName(name)`. -/
  findMessageTypeByName : Text → Option D
  /-- `MessageFactory::generated_factory()->GetPrototype(desc)` followed by `New()`. -/
  prototypeNew : D → Option M
  /-- A new message of the type on which `ParseFromArray` returned true. -/
  parseFromArray : D → Bytes → Option M
  /-- `Message::GetDescriptor()`. -/
  getDescriptor : M → D
  /-- `Message::SerializeAsString()`. -/
  serializeAsString : M → Bytes

/-- What the library relies on when it makes a message of a descriptor: every type has a
prototype, and a message made or parsed for a type is of that type. -/
structure Protobuf.Typed {D M : Type} (pb : Protobuf D M) : Prop where
  prototype : ∀ d, ∃ m, pb.prototypeNew d = some m
  new_type : ∀ {d m}, pb.prototypeNew d = some m → pb.getDescriptor m = d
  parse_type : ∀ {d dat m}, pb.parseFromArray d dat = some m → pb.getDescriptor m = d

/-- What is documented of encoding and of names.  `IsInitialized` holds of the messages whose
required fields are set. -/
structure Protobuf.Lawful {D M : Type} (pb : Protobuf D M) (IsInitialized : M → Prop) : Prop
    extends pb.Typed where
  /-- Parsing undoes serializing. -/
  parse_serialize : ∀ {m}, IsInitialized m →
    pb.parseFromArray (pb.getDescriptor m) (pb.serializeAsString m) = some m
  /-- No bytes parse to the new message. -/
  parse_nil : ∀ {d m}, pb.parseFromArray d [] = some m → pb.prototypeNew d = some m
  /-- Types are found by their full names. -/
  find_iff : ∀ {name d}, pb.findMessageTypeByName name = some d ↔ pb.fullName d = name
  name_ne : ∀ d, pb.name d ≠ []

/-! ## A small pool

Three message types for the examples on fixed inputs: one outside any package, one inside
a package and one with a required field.  A message is its type and its encoding. -/

/-- The message types. -/
inductive SampleType where
  | ping
  | pong
  | login
  deriving Repr, DecidableEq

/-- The messages. -/
abbrev SampleMsg := SampleType × Bytes

/-- The names without the package, as `Descriptor::name` gives them. -/
def SampleType.name : SampleType → Text
  | .ping => "Ping"
  | .pong => "Pong"
  | .login => "Login"

/-- The names with the package, as `FindMessageTypeByName` looks for them. -/
def SampleType.fullName : SampleType → Text
  | .ping => "Ping"
  | .pong => "x.Pong"
  | .login => "Login"

/-- The protobuf library for these messages. -/
def samplePb : Protobuf SampleType SampleMsg where
  name := SampleType.name
  fullName := SampleType.fullName
  findMessageTypeByName name := [.ping, .pong, .login].find? (·.fullName = name)
  prototypeNew d := some (d, [])
  -- the required field of a login is missing from an empty body
  parseFromArray d dat := if d = .login ∧ dat = [] then none else some (d, dat)
  getDescriptor m := m.1
  serializeAsString m := m.2

theorem samplePb_typed : samplePb.Typed where
  prototype d := ⟨_, rfl⟩
  new_type := by
    intro d m h
    cases h
    rfl
  parse_type := by
    intro d dat m h
    simp only [samplePb] at h
    split at h
    · cases h
    · cases h
      rfl

/-- The messages of the pool whose required fields are set. -/
def SampleMsg.IsInitialized (m : SampleMsg) : Prop := m ≠ (.login, [])

theorem samplePb_lawful : samplePb.Lawful SampleMsg.IsInitialized where
  toTyped := samplePb_typed
  parse_serialize := by
    rintro ⟨d, dat⟩ h
    show (if d = .login ∧ dat = [] then none else some (d, dat)) = some (d, dat)
    rw [if_neg]
    rintro ⟨rfl, rfl⟩
    exact h rfl
  parse_nil := by
    intro d m h
    simp only [samplePb] at h ⊢
    split at h
    · cases h
    · exact h
  find_iff := by
    intro name d
    constructor
    · intro h
      have hfind : [.ping, .pong, .login].find? (·.fullName = name) = some d := h
      have hname := List.find?_some hfind
      exact of_decide_eq_true hname
    · rintro rfl
      cases d <;> decide
  name_ne := by
    intro d
    cases d <;> decide

/-! ## Message stubs -/

/-- `ForeignAccessPermission`. -/
inductive ForeignAccessPermission where
  | FOREIGN_FORBIDDEN
  | FOREIGN_ALLOW
  | FOREIGN_ALLOW_EXISTED
  deriving Repr, DecidableEq

/-- A registered message.  `H` is the type of the registered callbacks, which the source
keeps as `void*`. -/
structure XmsgImMsgStub (D H : Type) where
  auth : Bool
  foreign : ForeignAccessPermission
  cb : H
  msg : Text
  begin_ : Option D
  end_ : Option D
  unidirection : Option D
  deriving Repr, DecidableEq

namespace XmsgImMsgStub

variable {D M H : Type} (pb : Protobuf D M)

/-- The constructor.  A stub is named after its begin descriptor, or else after its
unidirection descriptor. -/
def new (begin_ end_ unidirection : Option D) (cb : H) (auth : Bool)
    (foreign : ForeignAccessPermission) : XmsgImMsgStub D H where
  auth := auth
  foreign := foreign
  cb := cb
  msg := match begin_ with
    | some d => pb.name d
    | none =>
        match unidirection with
        | some d => pb.name d
        | none => []
  begin_ := begin_
  end_ := end_
  unidirection := unidirection

/-- `newPbMsg(desc)`. -/
def newPbMsg (desc : D) : Option M := pb.prototypeNew desc

/-- `newPbMsg(desc, dat, len)`: an empty body is the fresh message and is not parsed. -/
def newPbMsgDat (desc : D) (dat : Bytes) : Option M :=
  match newPbMsg pb desc with
  | none => none
  | some msg => if dat.length < 1 then some msg else pb.parseFromArray desc dat

/-- `newPbMsg(name, dat, len)`. -/
def newPbMsgName (name : Text) (dat : Bytes) : Option M :=
  match pb.findMessageTypeByName name with
  | none => none
  | some desc => newPbMsgDat pb desc dat

/-- `newBegin`: the message of a BEGIN, null where the stub serves none or the body does not
parse. -/
def newBegin (stub : XmsgImMsgStub D H) (dat : Bytes) : Option M :=
  match stub.begin_ with
  | none => none
  | some desc => newPbMsgDat pb desc dat

/-- `newUnidirection`: the message of a unidirection, like that of a BEGIN. -/
def newUnidirection (stub : XmsgImMsgStub D H) (dat : Bytes) : Option M :=
  match stub.unidirection with
  | none => none
  | some desc => newPbMsgDat pb desc dat

/-- The descriptor a stub serves the PDUs of a tag with. -/
def desc (stub : XmsgImMsgStub D H) : XscTransTag → Option D
  | .BEGIN => stub.begin_
  | .UNIDIRECTION => stub.unidirection
  | _ => none

/-- The two factories of a stub differ only in the descriptor they ask for. -/
theorem newBegin_eq (stub : XmsgImMsgStub D H) (dat : Bytes) :
    stub.newBegin pb dat = (stub.desc .BEGIN).bind (newPbMsgDat pb · dat) := by
  unfold newBegin
  show _ = stub.begin_.bind _
  cases stub.begin_ <;> rfl

theorem newUnidirection_eq (stub : XmsgImMsgStub D H) (dat : Bytes) :
    stub.newUnidirection pb dat = (stub.desc .UNIDIRECTION).bind (newPbMsgDat pb · dat) := by
  unfold newUnidirection
  show _ = stub.unidirection.bind _
  cases stub.unidirection <;> rfl

/-- A body makes a message of the descriptor's type, when it is empty or parses. -/
theorem newPbMsgDat_isSome {pb : Protobuf D M} (h : pb.Typed) (desc : D) (dat : Bytes) :
    (newPbMsgDat pb desc dat).isSome ↔ dat = [] ∨ (pb.parseFromArray desc dat).isSome := by
  obtain ⟨m, hnew⟩ := h.prototype desc
  unfold newPbMsgDat newPbMsg
  rw [hnew]
  cases dat with
  | nil => simp
  | cons x xs => simp

/-- A message that was made has the type it was made for. -/
theorem newPbMsgDat_type {pb : Protobuf D M} (h : pb.Typed) {desc : D} {dat : Bytes} {m : M}
    (hm : newPbMsgDat pb desc dat = some m) : pb.getDescriptor m = desc := by
  obtain ⟨m', hnew⟩ := h.prototype desc
  unfold newPbMsgDat newPbMsg at hm
  rw [hnew] at hm
  by_cases hlen : dat.length < 1
  · simp only [hlen, if_true] at hm
    cases hm
    exact h.new_type hnew
  · simp only [hlen, if_false] at hm
    exact h.parse_type hm

/-- The encoding of a message makes the message again, also when it is empty. -/
theorem newPbMsgDat_serialize {pb : Protobuf D M} {IsInitialized : M → Prop}
    (h : pb.Lawful IsInitialized) {m : M} (hm : IsInitialized m) :
    newPbMsgDat pb (pb.getDescriptor m) (pb.serializeAsString m) = some m := by
  obtain ⟨m', hnew⟩ := h.prototype (pb.getDescriptor m)
  have hparse := h.parse_serialize hm
  unfold newPbMsgDat newPbMsg
  rw [hnew]
  cases hdat : pb.serializeAsString m with
  | nil =>
      -- an empty body is not parsed
      rw [hdat] at hparse
      show some m' = some m
      rw [← hnew, h.parse_nil hparse]
  | cons x xs =>
      rw [hdat] at hparse
      simpa using hparse

/-- Under a name the encoding makes the message again exactly when the name is the full name
of its type. -/
theorem newPbMsgName_serialize_iff {pb : Protobuf D M} {IsInitialized : M → Prop}
    (h : pb.Lawful IsInitialized) {m : M} (hm : IsInitialized m) (name : Text) :
    newPbMsgName pb name (pb.serializeAsString m) = some m ↔
      pb.fullName (pb.getDescriptor m) = name := by
  unfold newPbMsgName
  constructor
  · intro hmsg
    cases hfind : pb.findMessageTypeByName name with
    | none =>
        rw [hfind] at hmsg
        cases hmsg
    | some desc =>
        rw [hfind] at hmsg
        rw [newPbMsgDat_type h.toTyped hmsg]
        exact h.find_iff.mp hfind
  · intro hname
    rw [h.find_iff.mpr hname]
    exact newPbMsgDat_serialize h hm

end XmsgImMsgStub

end XmsgImXsc
