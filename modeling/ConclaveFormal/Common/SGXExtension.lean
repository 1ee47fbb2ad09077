import ConclaveFormal.Common.SGXExtensionSafety

/-!
# Well-formed SGX extensions

An extension is a forest: every entry is a sequence of an object identifier and either a value or a
sequence of further entries.  From any valid encoding of it the parser collects exactly the values
at the leaves.  The key, the value and the type that the loop has pending are unset whenever an
entry ends, since the entry is a sequence of its own.
-/

set_option autoImplicit false

namespace Conclave.Common.SGXExtensionASN1Parser

open Conclave.Lib

/-! ## Readers on what stands at the offset -/

section Readers

variable {data : Bytes} (array : data.length < 2 ^ 31)

omit array in
theorem byteAt_present {offset : Int} {byte : UInt8} {rest : Bytes}
    (present : Present data offset (byte :: rest)) : byteAt data offset = .ok byte.toNat := by
  have nonneg := present.bounds.1
  rw [byteAt, if_neg (by omega), present.getElem?]

include array

theorem next_present {offset : Int} {byte : UInt8} {rest : Bytes}
    (present : Present data offset (byte :: rest)) : wrap32 (offset + 1) = offset + 1 := by
  have bounds := present.bounds
  rw [List.length_cons] at bounds
  apply wrap32_of_range <;> omega

theorem readUByte_present {offset : Int} {byte : UInt8} {rest : Bytes}
    (present : Present data offset (byte :: rest)) :
    readUByte data offset = .ok (byte.toNat, offset + 1) := by
  rw [readUByte, bind_of_ok (byteAt_present present), next_present array present]
  rfl

omit array in
theorem le_foldl_octets (octets : Bytes) (value : Nat) :
    value ≤ octets.foldl (fun acc byte => acc * 256 + byte.toNat) value := by
  induction octets generalizing value with
  | nil => exact le_rfl
  | cons byte rest ih =>
      have later := ih (value * 256 + byte.toNat)
      rw [List.foldl_cons]
      omega

theorem readLengthOctets_present {octets : Bytes} {value : Nat} {offset : Int}
    (fits : octets.foldl (fun acc byte => acc * 256 + byte.toNat) value < 2 ^ 31)
    (present : Present data offset octets) :
    readLengthOctets data octets.length value offset =
      .ok ((octets.foldl (fun acc byte => acc * 256 + byte.toNat) value : Nat),
        offset + octets.length) := by
  induction octets generalizing value offset with
  | nil => simp [readLengthOctets]
  | cons byte rest ih =>
      rw [List.foldl_cons] at fits ⊢
      have small := (le_foldl_octets rest (value * 256 + byte.toNat)).trans_lt fits
      have shifted : wrap32 ((value : Int) * 256) = value * 256 := by
        apply wrap32_of_range <;> omega
      have added : wrap32 ((value : Int) * 256 + byte.toNat) =
          ((value * 256 + byte.toNat : Nat) : Int) := by
        push_cast
        apply wrap32_of_range <;> omega
      rw [List.length_cons, readLengthOctets, bind_of_ok (readUByte_present array present)]
      dsimp only
      rw [shifted, added, ih fits present.tail]
      push_cast
      ring_nf

theorem readLength_present {length : Nat} {form : Bytes} {offset : Int}
    (valid : LengthForm length form) (fits : length < 2 ^ 31)
    (present : Present data offset form) :
    readLength data offset = .ok ((length : Int), offset + form.length) := by
  cases valid with
  | short small =>
      have octet : (UInt8.ofNat length).toNat = length := by
        rw [UInt8.toNat_ofNat']
        omega
      rw [readLength, bind_of_ok (readUByte_present array present), octet]
      dsimp only
      rw [if_neg (by omega)]
      rfl
  | @long octets nonempty few value =>
      have octet : (UInt8.ofNat (128 + octets.length)).toNat = 128 + octets.length := by
        rw [UInt8.toNat_ofNat']
        omega
      have positive := List.length_pos_iff.mpr nonempty
      have count : (128 + octets.length) &&& 0x7F = octets.length := by
        rw [show (0x7F : Nat) = 2 ^ 7 - 1 from rfl, Nat.and_two_pow_sub_one_eq_mod]
        omega
      have whole : octets.foldl (fun acc byte => acc * 256 + byte.toNat) 0 = length := value
      have read := @readLengthOctets_present data array octets 0 (offset + 1)
        (by rw [whole]; exact fits) present.tail
      rw [whole] at read
      rw [readLength, bind_of_ok (readUByte_present array present), octet]
      dsimp only
      rw [if_pos (by omega), count]
      refine read.trans ?_
      rw [List.length_cons]
      push_cast
      ring_nf

/-! ### Object identifiers -/

omit array in
theorem readArcs_succ {count : Nat} {text : JString} {value offset : Int} {byte : Nat}
    (read : byteAt data offset = .ok byte) :
    readArcs data (count + 1) text value offset =
      if byte &&& 0x80 = 0 then
        readArcs data count
          (text ++ dot :: intText (wrap32 (wrap32 (value * 128) + (byte - (byte &&& 0x80 : Nat)))))
          0 (wrap32 (offset + 1))
      else
        readArcs data count text (wrap32 (wrap32 (value * 128) + (byte - (byte &&& 0x80 : Nat))))
          (wrap32 (offset + 1)) := by
  rw [readArcs, bind_of_ok read]

theorem readArcs_digits {count : Nat} {text : JString} {value : Nat} {digits : List Nat}
    {rest : Bytes} {offset : Int} (small : ∀ digit ∈ digits, digit < 128)
    (fits : horner value digits < 2 ^ 31)
    (present : Present data offset
      (digits.map (fun digit => UInt8.ofNat (128 + digit)) ++ rest)) :
    readArcs data (digits.length + count) text value offset =
      readArcs data count text (horner value digits) (offset + digits.length) := by
  induction digits generalizing value offset with
  | nil => simp [horner]
  | cons digit digits ih =>
      have bound := small digit List.mem_cons_self
      have octet : (UInt8.ofNat (128 + digit)).toNat = 128 + digit := by
        rw [UInt8.toNat_ofNat']
        omega
      have continues : (128 + digit) &&& 0x80 = 128 := by
        interval_cases digit <;> rfl
      rw [horner_cons] at fits ⊢
      have grows := (le_horner (value * 128 + digit) digits).trans_lt fits
      have shifted : wrap32 ((value : Int) * 128) = value * 128 := by
        apply wrap32_of_range <;> omega
      have added : wrap32 ((value : Int) * 128 + (((128 + digit : Nat) : Int) - (128 : Nat))) =
          ((value * 128 + digit : Nat) : Int) := by
        push_cast
        rw [wrap32_of_range (by omega) (by omega)]
        ring
      rw [List.map_cons, List.cons_append] at present
      have count_eq : (digit :: digits).length + count = digits.length + count + 1 := by
        rw [List.length_cons]
        omega
      rw [count_eq, readArcs_succ (byteAt_present present), octet, continues, if_neg (by decide),
        next_present array present, shifted, added,
        ih (fun other member => small other (List.mem_cons_of_mem _ member)) fits present.tail,
        List.length_cons]
      push_cast
      ring_nf

theorem readArcs_arc {count : Nat} {text : JString} {arc : Nat} {rest : Bytes} {offset : Int}
    (fits : arc < 2 ^ 31) (present : Present data offset (base128 arc ++ rest)) :
    readArcs data ((base128 arc).length + count) text 0 offset =
      readArcs data count (text ++ dot :: natText arc) 0 (offset + (base128 arc).length) := by
  have digits := horner_digits (arc / 128)
  have small : ∀ digit ∈ (Nat.digits 128 (arc / 128)).reverse, digit < 128 := by
    intro digit member
    exact Nat.digits_lt_base (by decide) (List.mem_reverse.mp member)
  rw [base128, List.append_assoc] at present
  have front := @readArcs_digits data array (1 + count) text 0 _ _ offset small
    (by rw [digits]; omega) present
  rw [digits, Nat.cast_zero] at front
  have last := present.right
  rw [List.length_map] at last
  have octet : (UInt8.ofNat (arc % 128)).toNat = arc % 128 := by
    rw [UInt8.toNat_ofNat']
    omega
  have ends : (arc % 128) &&& 0x80 = 0 := by
    have bound := Nat.mod_lt arc (show 0 < 128 by decide)
    interval_cases arc % 128 <;> rfl
  have shifted : wrap32 (((arc / 128 : Nat) : Int) * 128) = (arc / 128 : Nat) * 128 := by
    apply wrap32_of_range <;> omega
  have added : wrap32 (((arc / 128 : Nat) : Int) * 128 + (((arc % 128 : Nat) : Int) - (0 : Nat))) =
      (arc : Int) := by
    rw [wrap32_of_range (by omega) (by omega)]
    omega
  have positive : intText (arc : Int) = natText arc := by
    rw [intText, if_neg (by omega), Int.natAbs_natCast]
  have length : (base128 arc).length = (Nat.digits 128 (arc / 128)).reverse.length + 1 := by
    simp [base128]
  rw [length, Nat.add_assoc, front, Nat.add_comm 1 count,
    readArcs_succ (byteAt_present last), octet, ends, if_pos rfl, shifted, added, positive,
    next_present array last]
  push_cast
  ring_nf

theorem readArcs_present {text : JString} {arcs : List Nat} {offset : Int}
    (fits : ∀ arc ∈ arcs, arc < 2 ^ 31) (present : Present data offset (arcs.flatMap base128)) :
    readArcs data (arcs.flatMap base128).length text 0 offset =
      .ok (text ++ arcs.flatMap fun arc => dot :: natText arc,
        offset + (arcs.flatMap base128).length) := by
  induction arcs generalizing text offset with
  | nil => simp [readArcs]
  | cons arc arcs ih =>
      rw [List.flatMap_cons] at present
      rw [List.flatMap_cons, List.length_append,
        readArcs_arc array (fits arc List.mem_cons_self) present,
        ih (fun other member => fits other (List.mem_cons_of_mem _ member)) present.right,
        List.flatMap_cons, List.append_assoc]
      push_cast
      ring_nf

theorem readObjectIDString_present {id : ObjectIdentifier} {form : Bytes} {offset : Int}
    (valid : LengthForm id.octets.length form) (fits : id.octets.length < 2 ^ 31)
    (present : Present data offset (form ++ id.octets)) :
    readObjectIDString data offset = .ok (id.text, offset + (form ++ id.octets).length) := by
  have root := id.root_lt
  have second := id.second_lt
  have octet : (UInt8.ofNat (40 * id.root + id.second)).toNat = 40 * id.root + id.second := by
    rw [UInt8.toNat_ofNat']
    omega
  have high : (40 * id.root + id.second) / 40 = id.root := by omega
  have low : (40 * id.root + id.second) % 40 = id.second := by omega
  have behind : Present data (offset + form.length) id.octets := present.right
  have count : ((id.octets.length : Int) - 1).toNat = (id.arcs.flatMap base128).length := by
    rw [ObjectIdentifier.octets, List.length_cons]
    omega
  rw [readObjectIDString, bind_of_ok (readLength_present array valid fits present.left)]
  dsimp only
  rw [bind_of_ok (readUByte_present array behind)]
  dsimp only
  rw [octet, high, low, count, readArcs_present array id.arcs_lt behind.tail,
    ObjectIdentifier.text_eq, ObjectIdentifier.octets, List.length_append, List.length_cons]
  push_cast
  ring_nf

theorem valuePos_present {content form : Bytes} {offset : Int}
    (valid : LengthForm content.length form) (fits : content.length < 2 ^ 31)
    (present : Present data offset (form ++ content)) :
    valuePos data offset = .ok (⟨offset + form.length, content.length⟩,
      offset + (form ++ content).length) := by
  have bounds := present.bounds
  rw [List.length_append] at bounds
  push_cast at bounds
  rw [valuePos, bind_of_ok (readLength_present array valid fits present.left)]
  dsimp only
  rw [wrap32_of_range (by omega) (by omega), List.length_append]
  push_cast
  rw [Int.add_assoc]
  rfl

/-! ## Rounds -/

theorem enter_present {content form : Bytes} {parser : SGXExtensionASN1Parser}
    (valid : LengthForm content.length form)
    (present : Present data parser.offset (form ++ content)) :
    enter data parser = .ok (⟨parser.offset + form.length,
      parser.offset + (form ++ content).length, none, none, 0⟩,
      { parser with offset := parser.offset + form.length }) := by
  have bounds := present.bounds
  rw [List.length_append] at bounds
  push_cast at bounds
  have read := readLength_present array valid (by omega) present.left
  rw [enter_of_length read, wrap32_of_range (by omega) (by omega), List.length_append]
  push_cast
  rw [Int.add_assoc]

theorem round_sequence {fields : Fields} {parser : SGXExtensionASN1Parser} {rest : Bytes}
    (present : Present data parser.offset (0x30 :: rest)) :
    round data fields parser =
      .ok (.sequence { parser with offset := parser.offset + 1 }) := by
  rw [round, bind_of_ok (readUByte_present array present)]
  rfl

theorem round_key {fields : Fields} {parser : SGXExtensionASN1Parser} {id : ObjectIdentifier}
    {bytes : Bytes} (encodes : Tlv 0x06 id.octets bytes) (unset : fields.value = none)
    (present : Present data parser.offset bytes) :
    round data fields parser = .ok (.next { fields with key := some id.text }
      { parser with offset := parser.offset + bytes.length }) := by
  obtain ⟨valid⟩ := encodes
  rename_i form
  have bounds := present.bounds
  rw [List.length_cons, List.length_append] at bounds
  have read := readObjectIDString_present array valid (by omega) present.tail
  have pending : record { fields with key := some id.text }
      { parser with offset := parser.offset + 1 + (form ++ id.octets).length } =
        .ok { parser with offset := parser.offset + 1 + (form ++ id.octets).length } := by
    rw [record, unset]
  rw [round, bind_of_ok (readUByte_present array present)]
  dsimp only
  rw [if_neg (by decide), if_pos (by decide), bind_of_ok read]
  dsimp only
  rw [bind_of_ok pending, List.length_cons]
  push_cast
  rw [Int.add_assoc, Int.add_comm 1]
  rfl

end Readers

/-! ## Extensions -/

inductive LeafTag where
  | octetString
  | integer
  | enumerated
  | boolean
  deriving DecidableEq, Repr

def LeafTag.octet : LeafTag → UInt8
  | octetString => 0x04
  | integer => 0x02
  | enumerated => 0x0A
  | boolean => 0x01

structure Leaf where
  id : ObjectIdentifier
  tag : LeafTag
  octets : Bytes
  deriving DecidableEq

/-- The entries of a sequence; those of a nested sequence stand behind its identifier. -/
inductive Entries where
  | nil
  | leaf (first : Leaf) (rest : Entries)
  | nested (id : ObjectIdentifier) (inner rest : Entries)

def Entries.leaves : Entries → List Leaf
  | nil => []
  | leaf first rest => first :: rest.leaves
  | nested _ inner rest => inner.leaves ++ rest.leaves

/-- The valid encodings, which differ in the forms of their lengths. -/
inductive Encodes : Entries → Bytes → Prop where
  | nil : Encodes .nil []
  | leaf {first : Leaf} {rest : Entries} {key value entry later : Bytes}
      (id : Tlv 0x06 first.id.octets key) (content : Tlv first.tag.octet first.octets value)
      (sequence : Tlv 0x30 (key ++ value) entry) (following : Encodes rest later) :
      Encodes (.leaf first rest) (entry ++ later)
  | nested {oid : ObjectIdentifier} {inner rest : Entries} {key entries value entry later : Bytes}
      (id : Tlv 0x06 oid.octets key) (below : Encodes inner entries)
      (content : Tlv 0x30 entries value) (sequence : Tlv 0x30 (key ++ value) entry)
      (following : Encodes rest later) : Encodes (.nested oid inner rest) (entry ++ later)

/-! ## What the loop collects -/

def Finishes (data : Bytes) (fields : Fields) (parser parser' : SGXExtensionASN1Parser) : Prop :=
  ∃ fuel, decodeFields data fuel fields parser = some (.ok parser')

namespace Finishes

variable {data : Bytes} {fields fields' inner : Fields}
  {parser behind entered parser' parser'' : SGXExtensionASN1Parser}

theorem stop (done : fields.stop ≤ parser.offset) : Finishes data fields parser parser :=
  ⟨1, by rw [decodeFields, if_neg (by omega)]⟩

theorem next (more : parser.offset < fields.stop)
    (ran : round data fields parser = .ok (.next fields' parser'))
    (later : Finishes data fields' parser' parser'') : Finishes data fields parser parser'' := by
  obtain ⟨fuel, ended⟩ := later
  refine ⟨fuel + 1, ?_⟩
  rw [decodeFields, if_pos more, ran]
  exact ended

theorem sequence (more : parser.offset < fields.stop)
    (ran : round data fields parser = .ok (.sequence behind))
    (enters : enter data behind = .ok (inner, entered))
    (within : Finishes data inner entered parser')
    (later : Finishes data fields.reset parser' parser'') :
    Finishes data fields parser parser'' := by
  obtain ⟨fuel, ended⟩ := within
  obtain ⟨fuel', ended'⟩ := later
  refine ⟨max fuel fuel' + 1, ?_⟩
  have first := decodeFields_mono_le (Nat.le_max_left fuel fuel') ended
  have second := decodeFields_mono_le (Nat.le_max_right fuel fuel') ended'
  rw [decodeFields, if_pos more, ran]
  dsimp only
  rw [enters]
  dsimp only
  rw [first]
  exact second

end Finishes

/-- The leaf is found under its identifier. -/
def Holds (data : Bytes) (parser : SGXExtensionASN1Parser) (leaf : Leaf) : Prop :=
  parser.types.lookup leaf.id.text = some leaf.tag.octet.toNat ∧
    getBytes data parser leaf.id.text = .ok leaf.octets

/-- The leaves have been added and nothing else has changed. -/
structure Extends (data : Bytes) (parser : SGXExtensionASN1Parser) (leaves : List Leaf)
    (parser' : SGXExtensionASN1Parser) : Prop where
  added : ∀ leaf ∈ leaves, Holds data parser' leaf
  values : ∀ key, key ∉ leaves.map (fun leaf => leaf.id.text) →
    parser'.values.lookup key = parser.values.lookup key
  types : ∀ key, key ∉ leaves.map (fun leaf => leaf.id.text) →
    parser'.types.lookup key = parser.types.lookup key

def Fresh (parser : SGXExtensionASN1Parser) (leaves : List Leaf) : Prop :=
  ∀ leaf ∈ leaves, leaf.id.text ∉ parser.values ∧ leaf.id.text ∉ parser.types

/-- No identifier occurs twice. -/
def Distinct (leaves : List Leaf) : Prop := (leaves.map Leaf.id).Nodup

instance (leaves : List Leaf) : Decidable (Distinct leaves) :=
  inferInstanceAs (Decidable (leaves.map Leaf.id).Nodup)

theorem Distinct.append {first second : List Leaf} (distinct : Distinct (first ++ second)) :
    Distinct first ∧ Distinct second ∧
      ∀ leaf ∈ first, ∀ other ∈ second, leaf.id.text ≠ other.id.text := by
  rw [Distinct, List.map_append, List.nodup_append] at distinct
  obtain ⟨left, right, apart⟩ := distinct
  refine ⟨left, right, ?_⟩
  intro leaf member other otherMember same
  have different := apart leaf.id (List.mem_map_of_mem member) other.id
    (List.mem_map_of_mem otherMember)
  exact different (ObjectIdentifier.text_inj same)

/-- The parser after it has recorded a leaf. -/
def withLeaf (parser : SGXExtensionASN1Parser) (leaf : Leaf) (value : ValuePos)
    (sequence : Int × Int) (offset : Int) : SGXExtensionASN1Parser :=
  { offset := offset
    values := parser.values.insert leaf.id.text value
    types := parser.types.insert leaf.id.text leaf.tag.octet.toNat
    sequences := parser.sequences.insert leaf.id.text sequence }

theorem LeafTag.octet_cases (tag : LeafTag) :
    tag.octet.toNat ≠ SEQ_TAG ∧ tag.octet.toNat ≠ OID_TAG ∧
      tag.octet.toNat ∈ [OCTSTR_TAG, INT_TAG, ENUM_TAG, BOOL_TAG] := by
  cases tag <;> decide

theorem round_value {data : Bytes} (array : data.length < 2 ^ 31) {fields : Fields}
    {parser : SGXExtensionASN1Parser} {leaf : Leaf} {form : Bytes}
    (valid : LengthForm leaf.octets.length form) (key : fields.key = some leaf.id.text)
    (fresh : leaf.id.text ∉ parser.values ∧ leaf.id.text ∉ parser.types)
    (present : Present data parser.offset (leaf.tag.octet :: (form ++ leaf.octets))) :
    round data fields parser =
      .ok (.next { fields with
          value := some ⟨parser.offset + 1 + form.length, leaf.octets.length⟩
          type := leaf.tag.octet.toNat }
        (parser.withLeaf leaf ⟨parser.offset + 1 + form.length, leaf.octets.length⟩
          (fields.start, fields.stop) (parser.offset + 1 + (form ++ leaf.octets).length))) := by
  have bounds := present.bounds
  rw [List.length_cons, List.length_append] at bounds
  have read := valuePos_present array valid (by omega) present.tail
  obtain ⟨notSequence, notKey, isValue⟩ := leaf.tag.octet_cases
  have recorded : record { fields with
      value := some ⟨parser.offset + 1 + form.length, leaf.octets.length⟩
      type := leaf.tag.octet.toNat }
      { parser with offset := parser.offset + 1 + (form ++ leaf.octets).length } =
        .ok (parser.withLeaf leaf ⟨parser.offset + 1 + form.length, leaf.octets.length⟩
          (fields.start, fields.stop) (parser.offset + 1 + (form ++ leaf.octets).length)) := by
    rw [record, key]
    dsimp only
    rw [if_neg fresh.1, if_neg fresh.2]
    rfl
  rw [round, bind_of_ok (readUByte_present array present)]
  dsimp only
  rw [if_neg notSequence, if_neg notKey, if_pos isValue, bind_of_ok read]
  dsimp only
  rw [bind_of_ok recorded]
  rfl

theorem Extends.refl (data : Bytes) (parser : SGXExtensionASN1Parser) (offset : Int) :
    Extends data parser [] { parser with offset := offset } := by
  constructor
  · intro leaf member
    cases member
  · intro key _
    rfl
  · intro key _
    rfl

theorem Extends.moved {data : Bytes} {parser parser' : SGXExtensionASN1Parser} {offset : Int}
    {leaves : List Leaf} (added : Extends data { parser with offset := offset } leaves parser') :
    Extends data parser leaves parser' := ⟨added.added, added.values, added.types⟩

theorem Extends.leaf {data : Bytes} {parser : SGXExtensionASN1Parser} {leaf : Leaf}
    {value : ValuePos} {sequence : Int × Int} {offset : Int}
    (content : wrap data value.offset value.length = .ok leaf.octets) :
    Extends data parser [leaf] (parser.withLeaf leaf value sequence offset) := by
  constructor
  · intro other member
    rw [List.mem_singleton.mp member]
    have found :
        getValue (parser.withLeaf leaf value sequence offset) leaf.id.text = .ok value := by
      rw [getValue, withLeaf, AList.lookup_insert]
    exact ⟨AList.lookup_insert _, by rw [getBytes, bind_of_ok found, content]⟩
  · intro key other
    exact AList.lookup_insert_ne fun same => other (by simp [same])
  · intro key other
    exact AList.lookup_insert_ne fun same => other (by simp [same])

theorem Holds.of_lookup {data : Bytes} {parser parser' : SGXExtensionASN1Parser} {leaf : Leaf}
    (holds : Holds data parser leaf)
    (values : parser'.values.lookup leaf.id.text = parser.values.lookup leaf.id.text)
    (types : parser'.types.lookup leaf.id.text = parser.types.lookup leaf.id.text) :
    Holds data parser' leaf := by
  refine ⟨types.trans holds.1, ?_⟩
  rw [getBytes, getValue, values]
  exact holds.2

theorem Extends.trans {data : Bytes} {parser middle parser' : SGXExtensionASN1Parser}
    {first second : List Leaf} (before : Extends data parser first middle)
    (after : Extends data middle second parser') (distinct : Distinct (first ++ second)) :
    Extends data parser (first ++ second) parser' := by
  have apart : ∀ leaf ∈ first, leaf.id.text ∉ second.map fun leaf => leaf.id.text := by
    intro leaf member later
    obtain ⟨other, otherMember, same⟩ := List.mem_map.mp later
    exact distinct.append.2.2 leaf member other otherMember same.symm
  constructor
  · intro leaf member
    rcases List.mem_append.mp member with early | late
    · have other := apart leaf early
      exact (before.added leaf early).of_lookup (after.values _ other) (after.types _ other)
    · exact after.added leaf late
  · intro key other
    rw [List.map_append, List.mem_append, not_or] at other
    rw [after.values key other.2, before.values key other.1]
  · intro key other
    rw [List.map_append, List.mem_append, not_or] at other
    rw [after.types key other.2, before.types key other.1]

theorem Extends.fresh {data : Bytes} {parser parser' : SGXExtensionASN1Parser}
    {first second : List Leaf} (extends' : Extends data parser first parser')
    (fresh : Fresh parser (first ++ second)) (distinct : Distinct (first ++ second)) :
    Fresh parser' second := by
  intro leaf member
  have other : leaf.id.text ∉ first.map fun leaf => leaf.id.text := by
    intro early
    obtain ⟨before, beforeMember, same⟩ := List.mem_map.mp early
    exact distinct.append.2.2 before beforeMember leaf member same
  obtain ⟨noValue, noType⟩ := fresh leaf (List.mem_append_right first member)
  rw [← AList.lookup_eq_none] at noValue noType ⊢
  rw [← AList.lookup_eq_none (a := leaf.id.text), extends'.values _ other, extends'.types _ other]
  exact ⟨noValue, noType⟩

/-! ## The whole forest -/

section Forest

variable {data : Bytes} (array : data.length < 2 ^ 31)

theorem wrap_present {offset : Int} {bytes : Bytes} (present : Present data offset bytes) :
    wrap data offset bytes.length = .ok bytes := by
  have bounds := present.bounds
  rw [wrap, if_pos (by omega), Int.toNat_natCast, present.slice]

/-- The loop collects the leaves and stops right behind them. -/
def Collects (data : Bytes) (fields : Fields) (parser : SGXExtensionASN1Parser)
    (leaves : List Leaf) : Prop :=
  ∃ parser', Finishes data fields parser parser' ∧ Extends data parser leaves parser' ∧
    parser'.offset = fields.stop

include array

/-- The contents of a sequence, decoded with variables of their own, then what follows it. -/
theorem collects_sequence {fields : Fields} {parser : SGXExtensionASN1Parser}
    {content sequence : Bytes} {first second : List Leaf} (tlv : Tlv 0x30 content sequence)
    (present : Present data parser.offset sequence)
    (more : parser.offset + sequence.length ≤ fields.stop) (distinct : Distinct (first ++ second))
    (within : ∀ start, Present data start content →
      Collects data ⟨start, start + content.length, none, none, 0⟩
        { parser with offset := start } first)
    (later : ∀ parser', Extends data parser first parser' →
      parser'.offset = parser.offset + sequence.length →
      Collects data fields.reset parser' second) :
    Collects data fields parser (first ++ second) := by
  obtain ⟨valid⟩ := tlv
  rename_i form
  have behind : Present data (parser.offset + 1) (form ++ content) := present.tail
  obtain ⟨inner, decoded, collected, stopped⟩ := within _ behind.right
  have stop : parser.offset + 1 + form.length + content.length =
      parser.offset + 1 + (form ++ content).length := by
    rw [List.length_append]
    omega
  have length : ((0x30 :: (form ++ content) : Bytes).length : Int) =
      1 + (form ++ content).length := by
    rw [List.length_cons]
    omega
  dsimp only at stopped
  rw [stop] at decoded stopped
  rw [length] at more later
  obtain ⟨final, ended, added, place⟩ := later inner collected.moved (by omega)
  refine ⟨final, ?_, collected.moved.trans added distinct, place⟩
  apply Finishes.sequence (by omega) (round_sequence array present) _ decoded ended
  exact enter_present array valid behind

theorem collects_leaf {fields : Fields} {parser : SGXExtensionASN1Parser} {leaf : Leaf}
    {key value : Bytes} (id : Tlv 0x06 leaf.id.octets key)
    (content : Tlv leaf.tag.octet leaf.octets value) (fresh : Fresh parser [leaf])
    (present : Present data parser.offset (key ++ value)) (unset : fields.value = none)
    (stop : fields.stop = parser.offset + (key ++ value).length) :
    Collects data fields parser [leaf] := by
  obtain ⟨valid⟩ := content
  rename_i form
  have behind := present.right
  have octets : Present data (parser.offset + key.length + 1 + form.length) leaf.octets :=
    behind.tail.right
  have keyLength : 0 < key.length := by
    obtain ⟨_⟩ := id
    exact Nat.succ_pos _
  simp only [List.length_append, List.length_cons] at stop
  push_cast at stop
  have first := round_key array id unset present.left
  have second := @round_value data array { fields with key := some leaf.id.text }
    { parser with offset := parser.offset + key.length } leaf form valid rfl
    (fresh leaf List.mem_cons_self) behind
  refine ⟨_, .next (by omega) first (.next ?_ second (.stop ?_)), ?_, ?_⟩
  · dsimp only
    omega
  · simp only [withLeaf, List.length_append]
    push_cast
    omega
  · exact Extends.leaf (wrap_present octets)
  · simp only [withLeaf, List.length_append]
    push_cast
    omega

theorem collects_nested {fields : Fields} {parser : SGXExtensionASN1Parser}
    {id : ObjectIdentifier} {key content value : Bytes} {leaves : List Leaf}
    (oid : Tlv 0x06 id.octets key) (tlv : Tlv 0x30 content value) (distinct : Distinct leaves)
    (present : Present data parser.offset (key ++ value)) (unset : fields.value = none)
    (stop : fields.stop = parser.offset + (key ++ value).length)
    (within : ∀ start, Present data start content →
      Collects data ⟨start, start + content.length, none, none, 0⟩
        { parser with offset := start } leaves) :
    Collects data fields parser leaves := by
  have keyLength : 0 < key.length := by
    obtain ⟨_⟩ := oid
    exact Nat.succ_pos _
  rw [List.length_append] at stop
  push_cast at stop
  have first := round_key array oid unset present.left
  have none_left : leaves ++ [] = leaves := List.append_nil leaves
  have inner : Collects data { fields with key := some id.text }
      { parser with offset := parser.offset + key.length } (leaves ++ []) := by
    apply collects_sequence array tlv present.right
    · dsimp only
      omega
    · rw [none_left]
      exact distinct
    · exact within
    · intro parser' _ place
      dsimp only at place
      refine ⟨parser', .stop ?_, .refl data parser' parser'.offset, ?_⟩
      · simp only [Fields.reset]
        omega
      · simp only [Fields.reset]
        omega
  rw [none_left] at inner
  obtain ⟨final, ended, added, place⟩ := inner
  exact ⟨final, .next (by omega) first ended, added.moved, place⟩

/-- By induction on the encoding. -/
theorem collects_entries {entries : Entries} {bytes : Bytes} (encodes : Encodes entries bytes)
    {fields : Fields} {parser : SGXExtensionASN1Parser} (fresh : Fresh parser entries.leaves)
    (distinct : Distinct entries.leaves) (present : Present data parser.offset bytes)
    (stop : fields.stop = parser.offset + bytes.length) :
    Collects data fields parser entries.leaves := by
  induction encodes generalizing fields parser with
  | nil =>
      have done : parser.offset = fields.stop := by
        rw [stop]
        simp
      exact ⟨parser, .stop done.ge, .refl data parser parser.offset, done⟩
  | @leaf first rest key value entry later id content sequence following ih =>
      rw [List.length_append] at stop
      push_cast at stop
      have split : [first] ++ rest.leaves = (Entries.leaf first rest).leaves := rfl
      rw [← split] at fresh distinct ⊢
      apply collects_sequence array sequence present.left (by omega) distinct
      · intro start inside
        apply collects_leaf array id content _ inside rfl rfl
        intro leaf member
        exact fresh leaf (List.mem_append_left _ member)
      · intro parser' extended place
        apply ih (extended.fresh fresh distinct)
        · exact distinct.append.2.1
        · rw [place]
          exact present.right
        · simp only [Fields.reset]
          omega
  | @nested oid inner rest key entries value entry later id below content sequence following
      ihInner ihRest =>
      rw [List.length_append] at stop
      push_cast at stop
      have split : inner.leaves ++ rest.leaves = (Entries.nested oid inner rest).leaves := rfl
      rw [← split] at fresh distinct ⊢
      have apart := distinct.append
      apply collects_sequence array sequence present.left (by omega) distinct
      · intro start inside
        apply collects_nested array id content apart.1 inside rfl rfl
        intro start' inside'
        apply ihInner _ apart.1 inside' rfl
        intro leaf member
        exact fresh leaf (List.mem_append_left _ member)
      · intro parser' extended place
        apply ihRest (extended.fresh fresh distinct) apart.2.1
        · rw [place]
          exact present.right
        · simp only [Fields.reset]
          omega

theorem new_wellFormed {entries : Entries} {inner node : Bytes} (encodes : Encodes entries inner)
    (sequence : Tlv 0x30 inner node) (wrapped : Tlv 0x04 node data)
    (distinct : Distinct entries.leaves) :
    ∃ parser, (∃ fuel, new data fuel = some (.ok parser)) ∧
      (∀ key, key ∈ parser.keys ↔ ∃ leaf ∈ entries.leaves, leaf.id.text = key) ∧
      ∀ leaf ∈ entries.leaves, parser.type leaf.id.text = leaf.tag.octet.toNat ∧
        getBytes data parser leaf.id.text = .ok leaf.octets := by
  have whole := Present.whole data
  obtain ⟨valid⟩ := wrapped
  rename_i form
  have begun : begin (0x04 :: (form ++ node)) = .ok ⟨1, ∅, ∅, ∅⟩ := by
    obtain ⟨_⟩ := sequence
    apply begin_of_tag _ (byteAt_present whole)
    simp only [List.length_cons, List.length_append]
    omega
  have behind : Present (0x04 :: (form ++ node)) 1 (form ++ node) := whole.tail
  have entered := @enter_present _ array _ _ ⟨1, ∅, ∅, ∅⟩ valid behind
  have collected : Collects (0x04 :: (form ++ node))
      ⟨1 + form.length, 1 + (form ++ node).length, none, none, 0⟩
      ⟨1 + form.length, ∅, ∅, ∅⟩ (entries.leaves ++ []) := by
    rw [List.length_append]
    push_cast
    apply collects_sequence array sequence behind.right
    · dsimp only
      omega
    · rw [List.append_nil]
      exact distinct
    · intro start inside
      refine collects_entries array encodes ?_ distinct inside rfl
      intro leaf _
      exact ⟨AList.notMem_empty _, AList.notMem_empty _⟩
    · intro parser' _ place
      dsimp only at place
      refine ⟨parser', .stop ?_, .refl _ parser' parser'.offset, ?_⟩
      · simp only [Fields.reset]
        omega
      · simp only [Fields.reset]
        omega
  rw [List.append_nil] at collected
  obtain ⟨parser, ⟨fuel, ended⟩, added, -⟩ := collected
  refine ⟨parser, ⟨fuel, ?_⟩, ?_, ?_⟩
  · simp only [new, begun, decode, entered]
    exact ended
  · intro key
    constructor
    · intro member
      by_contra none_named
      have other : key ∉ entries.leaves.map fun leaf => leaf.id.text := by
        intro named
        obtain ⟨leaf, leafMember, same⟩ := List.mem_map.mp named
        exact none_named ⟨leaf, leafMember, same⟩
      have missing : parser.values.lookup key = none := added.values key other
      exact AList.lookup_eq_none.mp missing member
    · rintro ⟨leaf, member, rfl⟩
      have got := (added.added leaf member).2
      obtain ⟨value, found, -⟩ := bind_eq_ok got
      rw [getValue] at found
      split at found
      · rename_i position known
        exact AList.lookup_isSome.mp (known ▸ rfl)
      · cases found
  · intro leaf member
    obtain ⟨typed, got⟩ := added.added leaf member
    refine ⟨?_, got⟩
    rw [type, typed]
    rfl

end Forest

def sampleLeaf : Leaf where
  id := ⟨1, 2, [840], by decide, by decide, by decide⟩
  tag := .integer
  octets := [3]

def sampleGroup : ObjectIdentifier := ⟨1, 3, [], by decide, by decide, by decide⟩

/-- One value, in a group of its own. -/
def sampleEntries : Entries := .nested sampleGroup (.leaf sampleLeaf .nil) .nil

def sampleData : Bytes :=
  [0x04, 0x13, 0x30, 0x11, 0x30, 0x0F, 0x06, 0x01, 0x2B, 0x30, 0x0A,
    0x30, 0x08, 0x06, 0x03, 0x2A, 0x86, 0x48, 0x02, 0x01, 0x03]

theorem sampleData_wellFormed : ∃ parser, (∃ fuel, new sampleData fuel = some (.ok parser)) ∧
    (∀ key, key ∈ parser.keys ↔ ∃ leaf ∈ sampleEntries.leaves, leaf.id.text = key) ∧
    ∀ leaf ∈ sampleEntries.leaves, parser.type leaf.id.text = leaf.tag.octet.toNat ∧
      getBytes sampleData parser leaf.id.text = .ok leaf.octets := by
  have octets : sampleLeaf.id.octets = [0x2A, 0x86, 0x48] := by decide +kernel
  have short {content : Bytes} {tag : UInt8} (small : content.length < 128) :
      Tlv tag content (tag :: ([UInt8.ofNat content.length] ++ content)) := .mk (.short small)
  have id : Tlv 0x06 sampleLeaf.id.octets [0x06, 0x03, 0x2A, 0x86, 0x48] := by
    rw [octets]
    exact short (by decide)
  have group : Tlv 0x06 sampleGroup.octets [0x06, 0x01, 0x2B] := short (by decide)
  have inner : Encodes (.leaf sampleLeaf .nil) (_ ++ []) :=
    .leaf id (short (by decide)) (short (by decide)) .nil
  have encodes : Encodes sampleEntries (_ ++ []) :=
    .nested group inner (short (by decide)) (short (by decide)) .nil
  exact new_wellFormed (by decide) encodes (short (by decide)) (short (by decide)) (by decide)

end Conclave.Common.SGXExtensionASN1Parser
