import Mathlib.Data.List.Induction
import Mathlib.Logic.Function.Iterate
import UbApplication.Lib.BitField
import UbApplication.Lib.Bytes

/-!
# Messages

A `Message` is a string that begins with some header words. Six fields share the first word by masks
and offsets, the others have words of their own. The pieces of the message follow, each with a
header word and its data. The `DCHECK`s are in no release build and are conditions on the values
here.
-/

namespace UbApplication.Tigon.Message

/-- The fields that have setters. -/
inductive Field where
  | isReplica
  | sourceNodeId
  | destNodeId
  | workerId
  | messageCount
  | messageLength
  | sourceClusterWorkerId
  | transactionId
  | messageGenTime
  | messageSendTime
  | messageRecvTime
  | messageRespTime
deriving DecidableEq, Repr

/-- A word of the string: where it starts, and how many bytes it has. -/
structure Word where
  start : Nat
  size : Nat
deriving DecidableEq, Repr

/-- Where a field is: its word, its offset there and the width of its mask. -/
structure Place where
  word : Word
  offset : Nat
  width : Nat

def header : Word := ⟨0, 8⟩

def Field.place : Field → Place
  | .isReplica => ⟨header, 0, 1⟩
  | .sourceNodeId => ⟨header, 57, 7⟩
  | .destNodeId => ⟨header, 50, 7⟩
  | .workerId => ⟨header, 42, 8⟩
  | .messageCount => ⟨header, 27, 15⟩
  | .messageLength => ⟨header, 1, 26⟩
  | .sourceClusterWorkerId => ⟨⟨12, 4⟩, 0, 32⟩
  | .transactionId => ⟨⟨16, 8⟩, 0, 64⟩
  | .messageGenTime => ⟨⟨24, 8⟩, 0, 64⟩
  | .messageSendTime => ⟨⟨32, 8⟩, 0, 64⟩
  | .messageRecvTime => ⟨⟨40, 8⟩, 0, 64⟩
  | .messageRespTime => ⟨⟨48, 8⟩, 0, 64⟩

/-- The values a setter may be called with: those that its check lets pass, or all of its type. An
`int32_t` is given by its bits. -/
def Field.Allows (field : Field) (value : Nat) : Prop :=
  value < 2 ^ match field with
    | .messageLength => 27
    | field => field.place.width

instance (field : Field) (value : Nat) : Decidable (field.Allows value) :=
  inferInstanceAs (Decidable (_ < _))

/-- `get_prefix_size`. -/
def prefixSize : Nat := 56

end Message

/-- A message: its string, which has at least the header words. -/
structure Message where
  data : List UInt8
  headed : Message.prefixSize ≤ data.length

namespace Message

/-- The word at a place of the string. -/
def ref (m : Message) (word : Word) : BitVec (8 * word.size) :=
  BitVec.ofNat _ (Bytes.word m.data word.start word.size)

def assign (m : Message) (word : Word) (value : BitVec (8 * word.size)) : Message :=
  ⟨Bytes.put m.data word.start word.size value.toNat,
    Nat.le_trans m.headed (Bytes.length_le_put ..)⟩

def get (m : Message) (field : Field) : Nat :=
  BitField.get field.place.offset field.place.width (m.ref field.place.word)

def set (m : Message) (field : Field) (value : Nat) : Message :=
  match field with
  -- `set_is_replica` calls `clear_source_node_id`
  | .isReplica => m.assign header (m.ref header &&& ~~~(BitField.mask _ 7 <<< 57) |||
      BitVec.ofNat _ value <<< 0)
  | field => m.assign field.place.word
      (BitField.set field.place.offset field.place.width (m.ref field.place.word) value)

/-- Setters called one after the other. -/
def setAll (m : Message) (calls : List (Field × Nat)) : Message :=
  calls.foldl (fun m call => m.set call.1 call.2) m

/-- A call that does what it should: the setter of the replica flag clears the source and not the
flag, and the mask of the length is narrower than its check. -/
def Ordinary (call : Field × Nat) : Prop :=
  call.1 ≠ .isReplica ∧ (call.1 = .messageLength → call.2 < 2 ^ 26)

instance (call : Field × Nat) : Decidable (Ordinary call) := inferInstanceAs (Decidable (_ ∧ _))

variable {m : Message}

/-- A field is within its word. -/
theorem Field.inside (field : Field) : field.place.word.start + field.place.word.size ≤ prefixSize ∧
    field.place.offset + field.place.width ≤ 8 * field.place.word.size := by
  cases field <;> decide

/-- Two fields have different bits of one word, or different words. -/
theorem Field.apart {one two : Field} (differ : one ≠ two) :
    (one.place.word = two.place.word ∧ (one.place.offset + one.place.width ≤ two.place.offset ∨
      two.place.offset + two.place.width ≤ one.place.offset)) ∨
    one.place.word.start + one.place.word.size ≤ two.place.word.start ∨
      two.place.word.start + two.place.word.size ≤ one.place.word.start := by
  cases one <;> cases two <;> first | exact absurd rfl differ | decide

/-- A word that was assigned. -/
theorem ref_assign_self (word : Word) (inside : word.start + word.size ≤ prefixSize)
    (value : BitVec (8 * word.size)) : (m.assign word value).ref word = value := by
  have headed := m.headed
  rw [ref, assign, Bytes.word_put_self (by omega)]
  apply BitVec.eq_of_toNat_eq
  rw [BitVec.toNat_ofNat, show 256 ^ word.size = 2 ^ (8 * word.size) from (Nat.pow_mul 2 8 _).symm,
    Nat.mod_mod, Nat.mod_eq_of_lt value.isLt]

/-- What a getter returns after a setter. -/
theorem get_set {target : Field} {value : Nat} (allowed : target.Allows value)
    (ordinary : Ordinary (target, value)) (field : Field) :
    (m.set target value).get field = if target = field then value else m.get field := by
  obtain ⟨real, short⟩ := ordinary
  have stored : m.set target value = m.assign target.place.word (BitField.set target.place.offset
      target.place.width (m.ref target.place.word) value) := by
    cases target <;> first | exact absurd rfl real | rfl
  have fits : value < 2 ^ target.place.width := by
    cases target <;> first | exact short rfl | exact allowed
  obtain ⟨bytes, bits⟩ := target.inside
  rw [stored, get]
  by_cases same : target = field
  · rw [if_pos same, ← same, ref_assign_self _ bytes, BitField.get_set_self bits fits]
  · rw [if_neg same, get]
    rcases Field.apart same with ⟨shared, disjoint⟩ | disjoint
    · have inside := field.inside.2
      rw [← shared] at inside ⊢
      rw [ref_assign_self _ bytes, BitField.get_set_of_disjoint inside fits disjoint.symm]
    · have headed := m.headed
      rw [ref, assign, Bytes.word_put_apart (by omega) _ disjoint.symm, ref]

/-- Whatever a message holds and whichever ordinary setters are called with values that their checks
let pass, each getter returns the value last set for its field, or the initial one. -/
theorem fields_independent (m : Message) (calls : List (Field × Nat))
    (allowed : ∀ call ∈ calls, call.1.Allows call.2) (ordinary : ∀ call ∈ calls, Ordinary call)
    (field : Field) : (m.setAll calls).get field =
      calls.foldl (fun last call => if call.1 = field then call.2 else last) (m.get field) := by
  induction calls generalizing m with
  | nil => rfl
  | cons call calls ih =>
    have here := get_set (m := m) (allowed call List.mem_cons_self)
      (ordinary call List.mem_cons_self)
    rw [setAll, List.foldl_cons, List.foldl_cons, ← here]
    exact ih (m.set call.1 call.2) (fun other member =>
      allowed other (List.mem_cons_of_mem _ member)) fun other member =>
        ordinary other (List.mem_cons_of_mem _ member)

/-- `Message()`, without its times. -/
def fresh : Message :=
  set ⟨Bytes.put (List.replicate prefixSize 0) 8 4 0xDEADBEEF, by decide⟩ .messageLength prefixSize

/-- A source and a count that are set, and then others. -/
theorem fields_independent_fresh :
    (fresh.setAll [(.sourceNodeId, 127), (.messageCount, 3), (.workerId, 255)]).get .sourceNodeId =
      127 :=
  fields_independent fresh _ (by decide) (by decide) .sourceNodeId

/-- The setter of the replica flag clears the source, a flag once set stays, and a length that the
check lets pass runs into the count. -/
theorem fields_disturbed :
    (∀ call ∈ [(Field.sourceNodeId, 127), (.isReplica, 1), (.isReplica, 0),
      (.messageLength, 2 ^ 26)], call.1.Allows call.2) ∧
    (fresh.setAll [(.sourceNodeId, 127), (.isReplica, 1)]).get .sourceNodeId = 0 ∧
    (fresh.setAll [(.isReplica, 1), (.isReplica, 0)]).get .isReplica = 1 ∧
    (fresh.setAll [(.messageCount, 0), (.messageLength, 2 ^ 26)]).get .messageCount = 1 := by
  decide +kernel

/-! ## Pieces -/

/-- A piece as it is built: the fields of its header, within the checks of
`construct_message_piece_header`, and its data. -/
structure Piece where
  messageType : Nat
  tableId : Nat
  partitionId : Nat
  granuleId : Nat
  payload : List UInt8
  fits : messageType < 2 ^ 7 ∧ 8 + payload.length < 2 ^ 22 ∧ tableId < 2 ^ 5 ∧ granuleId < 2 ^ 18 ∧
    partitionId < 2 ^ 12

namespace Piece

/-- The length of a piece, with its header. -/
def messageLength (p : Piece) : Nat := 8 + p.payload.length

def header (p : Piece) : BitVec 64 :=
  BitVec.ofNat 64 p.messageType <<< 57 + BitVec.ofNat 64 p.messageLength <<< 35 +
    BitVec.ofNat 64 p.tableId <<< 30 + BitVec.ofNat 64 p.granuleId <<< 12 +
    BitVec.ofNat 64 p.partitionId <<< 0

def bytes (p : Piece) : List UInt8 := Bytes.split 8 p.header.toNat ++ p.payload

end Piece

/-- What a piece shows: type, length, table, partition, granule and data. -/
structure Shown where
  messageType : Nat
  messageLength : Nat
  tableId : Nat
  partitionId : Nat
  granuleId : Nat
  payload : List UInt8

def Piece.shown (p : Piece) : Shown :=
  ⟨p.messageType, p.messageLength, p.tableId, p.partitionId, p.granuleId, p.payload⟩

def append (m : Message) (p : Piece) : Message :=
  ⟨m.data ++ p.bytes, Nat.le_trans m.headed (by simp)⟩

/-- `flush`, without its time. -/
def flush (m : Message) : Message :=
  (m.set .messageCount (m.get .messageCount + 1)).set .messageLength m.data.length

/-- A message made of pieces: each is appended and the message is flushed. -/
def build (pieces : List Piece) : Message := pieces.foldl (fun m p => (m.append p).flush) fresh

/-- A `StringPiece` of a message: where it starts in the string, with zero for null, and its
length. -/
structure StringPiece where
  data : Nat
  length : Nat

/-- `strncmp` returns zero. -/
def sameChars : Nat → List UInt8 → List UInt8 → Bool
  | 0, _, _ => true
  | n + 1, one, two =>
    one.headD 0 == two.headD 0 && (one.headD 0 == 0 || sameChars n one.tail two.tail)

structure Iterator where
  eof : Nat
  messagePiece : StringPiece

section

variable (m : Message)

/-- A field of the header of a piece. -/
def pieceField (start offset width : Nat) : Nat :=
  BitField.get offset width (BitVec.ofNat 64 (Bytes.word m.data start 8))

def getMessagePiece (eof ptr : Nat) : StringPiece :=
  if ptr = eof then ⟨0, 0⟩ else ⟨ptr, m.pieceField ptr 35 22⟩

/-- `begin`. -/
def first : Iterator := ⟨m.data.length, m.getMessagePiece m.data.length prefixSize⟩

/-- `end`. -/
def last : Iterator := ⟨m.data.length, m.getMessagePiece m.data.length m.data.length⟩

/-- `++` of an iterator. -/
def next (it : Iterator) : Iterator :=
  ⟨it.eof, m.getMessagePiece it.eof
    (it.messagePiece.data + m.pieceField it.messagePiece.data 35 22)⟩

/-- `==` of iterators. -/
def equal (it that : Iterator) : Bool :=
  sameChars (min it.messagePiece.length that.messagePiece.length) (m.data.drop it.messagePiece.data)
      (m.data.drop that.messagePiece.data) &&
    it.messagePiece.length == that.messagePiece.length && it.eof == that.eof

/-- What the getters and `toStringPiece` return for the piece of an iterator. -/
def visit (it : Iterator) : Shown :=
  let start := it.messagePiece.data
  ⟨m.pieceField start 57 7, m.pieceField start 35 22, m.pieceField start 30 5,
    m.pieceField start 0 12, m.pieceField start 12 18,
      (m.data.drop (start + 8)).take (m.pieceField start 35 22 - 8)⟩

end

/-- The data after the prefix stay. -/
theorem drop_set (field : Field) (value : Nat) :
    (m.set field value).data.drop prefixSize = m.data.drop prefixSize := by
  have headed := m.headed
  have kept (word : Word) (inside : word.start + word.size ≤ prefixSize)
    (x : BitVec (8 * word.size)) :
      (m.assign word x).data.drop prefixSize = m.data.drop prefixSize := by
    apply List.ext_getElem?
    intro i
    rw [List.getElem?_drop, List.getElem?_drop]
    exact Bytes.getElem?_put (by omega) _ (.inr (by omega))
  cases field <;> exact kept _ (by decide) _

/-- The data of a built message. -/
theorem build_data (pieces : List Piece) : ∃ before : List UInt8,
    (build pieces).data = before ++ pieces.flatMap Piece.bytes ∧ before.length = prefixSize := by
  have appended (m : Message) :
    (pieces.foldl (fun m p => (m.append p).flush) m).data.drop prefixSize =
      m.data.drop prefixSize ++ pieces.flatMap Piece.bytes := by
    induction pieces generalizing m with
    | nil => simp
    | cons p pieces ih =>
      rw [List.foldl_cons, ih, flush, drop_set, drop_set, append,
        List.drop_append_of_le_length m.headed, List.flatMap_cons, List.append_assoc]
  have rest : (build pieces).data.drop prefixSize = pieces.flatMap Piece.bytes := appended fresh
  refine ⟨(build pieces).data.take prefixSize, ?_, List.length_take_of_le (headed _)⟩
  rw [← rest, List.take_append_drop]

/-- The header of a piece, without overflow. -/
theorem Piece.header_toNat (p : Piece) : p.header.toNat = p.messageType * 2 ^ 57 +
    p.messageLength * 2 ^ 35 + p.tableId * 2 ^ 30 + p.granuleId * 2 ^ 12 + p.partitionId := by
  have fits := p.fits
  simp only [header, messageLength, BitVec.toNat_add, BitVec.toNat_shiftLeft, BitVec.toNat_ofNat,
    Nat.shiftLeft_eq]
  omega

variable {before rest : List UInt8}

/-- A piece that follows some bytes shows what it was built with. -/
theorem visit_piece {p : Piece} (data : m.data = before ++ (p.bytes ++ rest)) (eof length : Nat) :
    m.visit ⟨eof, before.length, length⟩ = p.shown := by
  rw [Piece.bytes, List.append_assoc] at data
  have word : BitVec.ofNat 64 (Bytes.word m.data before.length 8) = p.header := by
    rw [data, Bytes.word_append]
    apply BitVec.eq_of_toNat_eq
    have small := p.header.isLt
    rw [BitVec.toNat_ofNat]
    omega
  have payload : m.data.drop (before.length + 8) = p.payload ++ rest := by
    rw [data, ← List.append_assoc]
    exact List.drop_left' (by simp)
  have fits := p.fits
  simp (disch := decide) only [visit, pieceField, word, payload, BitField.get_eq, p.header_toNat,
    Piece.shown, Piece.messageLength, Shown.mk.injEq]
  exact ⟨by omega, by omega, by omega, by omega, by omega, List.take_left' (by omega)⟩

/-- The iterator that has come to a place. -/
def reached (m : Message) (start : Nat) : Iterator :=
  ⟨m.data.length, m.getMessagePiece m.data.length start⟩

/-- The iterator at a piece. -/
theorem reached_piece {p : Piece} (data : m.data = before ++ (p.bytes ++ rest)) :
    m.reached before.length = ⟨m.data.length, before.length, p.messageLength⟩ ∧
      m.next (m.reached before.length) = m.reached (before ++ p.bytes).length := by
  have more : p.bytes.length = p.messageLength := by simp [Piece.bytes, Piece.messageLength]
  have inside : before.length ≠ m.data.length := by
    rw [data, List.length_append, List.length_append, more, Piece.messageLength]
    omega
  have length : m.pieceField before.length 35 22 = p.messageLength :=
    congrArg Shown.messageLength (visit_piece data 0 0)
  have here : m.reached before.length = ⟨m.data.length, before.length, p.messageLength⟩ := by
    rw [reached, getMessagePiece, if_neg inside, length]
  refine ⟨here, ?_⟩
  rw [here, next, length, List.length_append, more]
  rfl

/-- A message that is built of pieces is iterated over piece by piece, each as it was built, and the
end is reached exactly after the last one. -/
theorem pieces_round_trip (pieces : List Piece) :
    (∀ index p, pieces[index]? = some p →
      (build pieces).equal ((build pieces).next^[index] (build pieces).first) (build pieces).last =
        false ∧
      (build pieces).visit ((build pieces).next^[index] (build pieces).first) = p.shown) ∧
    (build pieces).equal ((build pieces).next^[pieces.length] (build pieces).first)
    (build pieces).last =
      true := by
  obtain ⟨before, data, size⟩ := build_data pieces
  have placed {front back : List Piece} {p : Piece} (whole : pieces = front ++ p :: back) :
      (build pieces).data = (before ++ front.flatMap Piece.bytes) ++
        (p.bytes ++ back.flatMap Piece.bytes) := by
    rw [data, whole]
    simp
  -- how far the iterator is after so many steps
  have walk (front back : List Piece) (whole : pieces = front ++ back) :
      (build pieces).next^[front.length] (build pieces).first =
        (build pieces).reached (before ++ front.flatMap Piece.bytes).length := by
    induction front using List.reverseRecOn generalizing back with
    | nil => simp [first, reached, size]
    | append_singleton front p ih =>
      rw [List.append_assoc] at whole
      rw [List.length_append, List.length_singleton, Function.iterate_succ_apply', ih _ whole,
        (reached_piece (placed whole)).2]
      simp
  refine ⟨fun index p found => ?_, ?_⟩
  · obtain ⟨bound, rfl⟩ := List.getElem?_eq_some_iff.mp found
    have whole : pieces = pieces.take index ++ pieces[index] :: pieces.drop (index + 1) := by
      rw [← List.drop_eq_getElem_cons, List.take_append_drop]
    have steps := walk _ _ whole
    rw [List.length_take_of_le (Nat.le_of_lt bound)] at steps
    rw [steps, (reached_piece (placed whole)).1]
    exact ⟨by simp [equal, last, getMessagePiece, Piece.messageLength],
      visit_piece (placed whole) _ _⟩
  · rw [walk pieces [] (List.append_nil _).symm, ← data]
    simp [equal, last, reached, getMessagePiece, sameChars]

end Message

end UbApplication.Tigon
