import ConclaveFormal.Common.SGXExtensionASN1Parser

/-!
# Lengths that the parser of the SGX extension trusts

The length of a value moves the offset without a check.  A negative one moves it back, and the loop
can then go on for ever; one that is too large is recorded and reaches beyond the sequence or the
data.  `Place` follows the tags and lengths of the data itself.  Where no length leads back into the
data, and the value behind a key ends within its sequence and the data, the constructor comes to its
end, and all that it has recorded can be taken out again.
-/

set_option autoImplicit false

namespace Conclave.Common.SGXExtensionASN1Parser

open Conclave.Lib

/-! ## The elements of the data -/

/-- The places that the tags and lengths of the data lead to, in the contents of a sequence from
`start` to `stop`.  `keyed` says that an object identifier stands in front of the place, with no
sequence in between. -/
inductive Place (data : Bytes) : Int → Int → Bool → Int → Prop where
  | first {tag : UInt8} {length contents : Int} (header : Header data 0 tag length contents) :
      Place data contents (wrap32 (contents + length)) false contents
  | behindKey {start stop : Int} {keyed : Bool} {place : Int} {tag : UInt8} {length contents : Int}
      (here : Place data start stop keyed place) (more : place < stop)
      (header : Header data place tag length contents) (isKey : tag.toNat = OID_TAG) :
      Place data start stop true (contents + max 1 length)
  | behindValue {start stop : Int} {keyed : Bool} {place : Int} {tag : UInt8}
      {length contents : Int} (here : Place data start stop keyed place) (more : place < stop)
      (header : Header data place tag length contents)
      (isValue : tag.toNat ∈ [OCTSTR_TAG, INT_TAG, ENUM_TAG, BOOL_TAG]) :
      Place data start stop keyed (wrap32 (contents + length))
  | inSequence {start stop : Int} {keyed : Bool} {place : Int} {tag : UInt8} {length contents : Int}
      (here : Place data start stop keyed place) (more : place < stop)
      (header : Header data place tag length contents) (isSequence : tag.toNat = SEQ_TAG) :
      Place data contents (wrap32 (contents + length)) false contents
  | behindSequence {start stop : Int} {keyed : Bool} {place : Int} {tag : UInt8}
      {length contents : Int} (here : Place data start stop keyed place) (more : place < stop)
      (header : Header data place tag length contents) (isSequence : tag.toNat = SEQ_TAG)
      {keyedInside : Bool} {last : Int}
      (inside : Place data contents (wrap32 (contents + length)) keyedInside last)
      (ended : wrap32 (contents + length) ≤ last) : Place data start stop false last

/-- The check that `valuePos` does not make, on the data: no length of a value leads back into the
data, and behind a key a value ends by the end of its sequence and of the data. -/
def ValuesContained (data : Bytes) : Prop :=
  ∀ start stop keyed place tag length contents, Place data start stop keyed place →
    place < stop → Header data place tag length contents →
    tag.toNat ∈ [OCTSTR_TAG, INT_TAG, ENUM_TAG, BOOL_TAG] →
      (0 ≤ length ∨ contents + length < 0) ∧
        (keyed = true → 0 ≤ length ∧ contents + length ≤ stop ∧ contents + length ≤ data.length)

/-! ## Where the readers leave the offset -/

section Readers

variable {data : Bytes} (array : data.length < 2 ^ 31)

omit array in
theorem byteAt_ok {index : Int} {byte : Nat} (read : byteAt data index = .ok byte) :
    ∃ octet, data[index.toNat]? = some octet ∧ byte = octet.toNat ∧ 0 ≤ index ∧
      index < data.length := by
  rw [byteAt] at read
  split at read
  · cases read
  · rename_i nonneg
    split at read
    · rename_i octet found
      obtain ⟨inside, -⟩ := List.getElem?_eq_some_iff.mp found
      cases read
      exact ⟨octet, found, rfl, by omega, by omega⟩
    · cases read

include array

theorem readUByte_ok {offset offset' : Int} {byte : Nat}
    (read : readUByte data offset = .ok (byte, offset')) :
    ∃ octet, data[offset.toNat]? = some octet ∧ byte = octet.toNat ∧ 0 ≤ offset ∧
      offset < data.length ∧ offset' = offset + 1 := by
  obtain ⟨value, at_offset, rest⟩ := bind_eq_ok read
  cases rest
  obtain ⟨octet, found, same, nonneg, inside⟩ := byteAt_ok at_offset
  refine ⟨octet, found, same, nonneg, inside, wrap32_of_range ?_ ?_⟩ <;> omega

theorem readLengthOctets_ok {cnt : Nat} {length length' offset offset' : Int}
    (nonneg : 0 ≤ offset) (inside : offset ≤ data.length) (wrapped : wrap32 length = length)
    (read : readLengthOctets data cnt length offset = .ok (length', offset')) :
    ∃ octets : Bytes, octets.length = cnt ∧ Present data offset octets ∧
      length' = wrap32 (length * 256 ^ cnt + ofBigEndian octets) ∧ offset' = offset + cnt := by
  induction cnt generalizing length offset with
  | zero =>
      cases read
      refine ⟨[], rfl, .nil nonneg inside, ?_, ?_⟩
      · simp [ofBigEndian, wrapped]
      · simp
  | succ cnt ih =>
      obtain ⟨⟨byte, next⟩, first, rest⟩ := bind_eq_ok read
      obtain ⟨octet, found, rfl, -, here, rfl⟩ := readUByte_ok array first
      obtain ⟨octets, count, present, value, moved⟩ :=
        ih (by omega) (by omega) (wrap32_wrap32 _) rest
      refine ⟨octet :: octets, ?_, .cons nonneg found present, ?_, ?_⟩
      · rw [List.length_cons, count]
      · rw [value, wrap32_wrap32_add, wrap32_wrap32_mul_add, ofBigEndian_cons, count]
        push_cast
        ring_nf
      · rw [moved]
        push_cast
        omega

theorem readLength_ok {length offset offset' : Int}
    (read : readLength data offset = .ok (length, offset')) :
    ∃ octets, Length32 length octets ∧ Present data offset octets ∧
      offset' = offset + octets.length := by
  obtain ⟨⟨byte, next⟩, first, rest⟩ := bind_eq_ok read
  obtain ⟨octet, found, rfl, nonneg, here, rfl⟩ := readUByte_ok array first
  have small := octet.toNat_lt
  dsimp only at rest
  split at rest
  · rename_i large
    have count : octet.toNat &&& 0x7F = octet.toNat - 128 := by
      rw [show (0x7F : Nat) = 2 ^ 7 - 1 from rfl, Nat.and_two_pow_sub_one_eq_mod]
      omega
    rw [count] at rest
    obtain ⟨octets, size, present, value, moved⟩ :=
      readLengthOctets_ok array (by omega) (by omega) (by decide) rest
    rw [zero_mul, zero_add] at value
    refine ⟨octet :: octets, ?_, .cons nonneg found present, ?_⟩
    · rw [value]
      exact .long (by omega)
    · rw [moved, List.length_cons]
      omega
  · cases rest
    have behind : Present data (offset + 1) [] := .nil (by omega) (by omega)
    exact ⟨[octet], .short (by omega), .cons nonneg found behind, by simp⟩

/-- The tag and the length of an element have been read. -/
theorem header_of_reads {place next length contents : Int} {tag : Nat}
    (first : readUByte data place = .ok (tag, next))
    (second : readLength data next = .ok (length, contents)) :
    ∃ octet, octet.toNat = tag ∧ Header data place octet length contents := by
  obtain ⟨octet, found, rfl, nonneg, here, rfl⟩ := readUByte_ok array first
  obtain ⟨octets, form, present, moved⟩ := readLength_ok array second
  exact ⟨octet, rfl, octets, form, .cons nonneg found present, by rw [moved]⟩

theorem readArcs_ok {count : Nat} {text text' : JString} {value offset offset' : Int}
    (inside : offset ≤ data.length)
    (read : readArcs data count text value offset = .ok (text', offset')) :
    offset' = offset + count ∧ offset' ≤ data.length := by
  induction count generalizing text value offset with
  | zero =>
      cases read
      exact ⟨by simp, inside⟩
  | succ count ih =>
      obtain ⟨byte, first, rest⟩ := bind_eq_ok read
      obtain ⟨octet, -, -, nonneg, here⟩ := byteAt_ok first
      have moved : wrap32 (offset + 1) = offset + 1 := by
        apply wrap32_of_range <;> omega
      dsimp only at rest
      rw [moved] at rest
      split at rest
      · have later := ih (by omega) rest
        push_cast
        omega
      · have later := ih (by omega) rest
        push_cast
        omega

theorem readObjectIDString_ok {text : JString} {offset offset' : Int}
    (read : readObjectIDString data offset = .ok (text, offset')) :
    ∃ length contents, readLength data offset = .ok (length, contents) ∧
      offset' = contents + max 1 length ∧ offset' ≤ data.length := by
  obtain ⟨⟨length, next⟩, first, rest⟩ := bind_eq_ok read
  obtain ⟨⟨value, next'⟩, second, rest⟩ := bind_eq_ok rest
  obtain ⟨-, -, -, -, here, rfl⟩ := readUByte_ok array second
  obtain ⟨moved, inside⟩ := readArcs_ok array (by omega) rest
  refine ⟨length, next, first, ?_, inside⟩
  omega

omit array in
theorem valuePos_ok {value : ValuePos} {offset offset' : Int}
    (read : valuePos data offset = .ok (value, offset')) :
    readLength data offset = .ok (value.length, value.offset) ∧
      offset' = wrap32 (value.offset + value.length) := by
  obtain ⟨⟨length, next⟩, first, rest⟩ := bind_eq_ok read
  cases rest
  exact ⟨first, rfl⟩

end Readers

/-! ## What a round can do -/

theorem record_ok {fields : Fields} {parser parser' : SGXExtensionASN1Parser}
    (recorded : record fields parser = .ok parser') :
    parser' = parser ∨ ∃ key value, fields.key = some key ∧ fields.value = some value ∧
      key ∉ parser.values ∧ parser' = { parser with
        values := parser.values.insert key value
        types := parser.types.insert key fields.type
        sequences := parser.sequences.insert key (fields.start, fields.stop) } := by
  obtain ⟨start, stop, key, value, type⟩ := fields
  cases key with
  | none =>
      cases recorded
      exact .inl rfl
  | some key =>
      cases value with
      | none =>
          cases recorded
          exact .inl rfl
      | some value =>
          simp only [record] at recorded
          by_cases known : key ∈ parser.values
          · rw [if_pos known] at recorded
            cases recorded
          · rw [if_neg known] at recorded
            by_cases typed : key ∈ parser.types
            · rw [if_pos typed] at recorded
              cases recorded
            · rw [if_neg typed] at recorded
              cases recorded
              exact .inr ⟨key, value, rfl, rfl, known, rfl⟩

theorem record_offset {fields : Fields} {parser parser' : SGXExtensionASN1Parser}
    (recorded : record fields parser = .ok parser') : parser'.offset = parser.offset := by
  rcases record_ok recorded with rfl | ⟨key, value, -, -, -, rfl⟩
  · rfl
  · rfl

/-- A round reads the tag of a sequence, a key, or a value. -/
inductive RoundCase (data : Bytes) (fields : Fields) (parser : SGXExtensionASN1Parser) :
    Round → Prop where
  | sequence {offset : Int} (tag : readUByte data parser.offset = .ok (SEQ_TAG, offset)) :
      RoundCase data fields parser (.sequence { parser with offset := offset })
  | key {tag : UInt8} {length contents : Int} {key : JString} {parser' : SGXExtensionASN1Parser}
      (header : Header data parser.offset tag length contents) (isKey : tag.toNat = OID_TAG)
      (recorded : record { fields with key := some key }
        { parser with offset := contents + max 1 length } = .ok parser') :
      RoundCase data fields parser (.next { fields with key := some key } parser')
  | value {tag : UInt8} {length contents : Int} {parser' : SGXExtensionASN1Parser}
      (header : Header data parser.offset tag length contents)
      (isValue : tag.toNat ∈ [OCTSTR_TAG, INT_TAG, ENUM_TAG, BOOL_TAG])
      (recorded : record { fields with value := some ⟨contents, length⟩, type := tag.toNat }
        { parser with offset := wrap32 (contents + length) } = .ok parser') :
      RoundCase data fields parser
        (.next { fields with value := some ⟨contents, length⟩, type := tag.toNat } parser')

theorem round_cases {data : Bytes} (array : data.length < 2 ^ 31) {fields : Fields}
    {parser : SGXExtensionASN1Parser} {result : Round}
    (ran : round data fields parser = .ok result) :
    0 ≤ parser.offset ∧ parser.offset < data.length ∧ RoundCase data fields parser result := by
  obtain ⟨⟨tag, offset⟩, first, rest⟩ := bind_eq_ok ran
  obtain ⟨-, -, -, nonneg, here, -⟩ := readUByte_ok array first
  refine ⟨nonneg, here, ?_⟩
  dsimp only at rest
  split at rest
  · rename_i isSequence
    cases rest
    rw [isSequence] at first
    exact .sequence first
  · split at rest
    · rename_i isKey
      obtain ⟨⟨key, offset'⟩, second, rest⟩ := bind_eq_ok rest
      obtain ⟨parser', recorded, rest⟩ := bind_eq_ok rest
      cases rest
      obtain ⟨length, contents, third, rfl, -⟩ := readObjectIDString_ok array second
      obtain ⟨octet, rfl, header⟩ := header_of_reads array first third
      exact .key header isKey recorded
    · split at rest
      · rename_i isValue
        obtain ⟨⟨value, offset'⟩, second, rest⟩ := bind_eq_ok rest
        obtain ⟨parser', recorded, rest⟩ := bind_eq_ok rest
        cases rest
        obtain ⟨third, rfl⟩ := valuePos_ok second
        obtain ⟨octet, rfl, header⟩ := header_of_reads array first third
        exact .value header isValue recorded
      · cases rest

theorem enter_ok {data : Bytes} {fields : Fields} {parser parser' : SGXExtensionASN1Parser}
    (entered : enter data parser = .ok (fields, parser')) :
    ∃ length contents, readLength data parser.offset = .ok (length, contents) ∧
      fields = ⟨contents, wrap32 (contents + length), none, none, 0⟩ ∧
      parser' = { parser with offset := contents } := by
  obtain ⟨⟨length, offset⟩, read, rest⟩ := bind_eq_ok entered
  cases rest
  exact ⟨length, offset, read, rfl, rfl⟩

/-! ## Values within their sequences -/

/-- The position lies within the contents of a sequence and within the data. -/
structure Within (data : Bytes) (start stop : Int) (value : ValuePos) : Prop where
  first : start ≤ value.offset
  nonneg : 0 ≤ value.offset
  length : 0 ≤ value.length
  last : value.offset + value.length ≤ stop
  inside : value.offset + value.length ≤ data.length

def Recorded (data : Bytes) (parser : SGXExtensionASN1Parser) : Prop :=
  ∀ key value, parser.values.lookup key = some value →
    ∃ start stop, parser.sequences.lookup key = some (start, stop) ∧ Within data start stop value

/-- The constructor comes to its end.  If it returns, all the positions that it has recorded lie
within their sequences, and `getBytes` throws for none of them. -/
def Safe (data : Bytes) : Prop :=
  (∃ fuel, (new data fuel).isSome = true) ∧
    ∀ fuel parser, new data fuel = some (.ok parser) → Recorded data parser ∧
      ∀ key ∈ parser.keys, ∃ bytes, getBytes data parser key = .ok bytes

/-! ## The constructor comes to its end -/

/-- Nothing more can be read in a sequence that ends at `stop`. -/
def Exhausted (data : Bytes) (stop offset : Int) : Prop :=
  stop ≤ offset ∨ data.length ≤ offset ∨ offset < 0

/-- What holds between two rounds. -/
structure Sound (data : Bytes) (fields : Fields) (parser : SGXExtensionASN1Parser) : Prop where
  place : Place data fields.start fields.stop fields.key.isSome parser.offset
  begun : fields.start ≤ parser.offset ∨ parser.offset < 0
  pending : ∀ value, fields.value = some value →
    Within data fields.start fields.stop value ∨ Exhausted data fields.stop parser.offset
  recorded : Recorded data parser

theorem Recorded.moved {data : Bytes} {parser : SGXExtensionASN1Parser}
    (recorded : Recorded data parser) (offset : Int) :
    Recorded data { parser with offset := offset } := recorded

theorem Recorded.record {data : Bytes} {fields : Fields} {parser parser' : SGXExtensionASN1Parser}
    (before : Recorded data parser)
    (pending : ∀ key value, fields.key = some key → fields.value = some value →
      Within data fields.start fields.stop value)
    (recorded : record fields parser = .ok parser') : Recorded data parser' := by
  rcases record_ok recorded with rfl | ⟨key, value, isKey, isValue, -, rfl⟩
  · exact before
  · intro other position found
    by_cases same : other = key
    · subst same
      rw [AList.lookup_insert] at found
      cases found
      exact ⟨fields.start, fields.stop, AList.lookup_insert _, pending other value isKey isValue⟩
    · rw [AList.lookup_insert_ne same] at found
      obtain ⟨start, stop, inSequence, within⟩ := before other position found
      exact ⟨start, stop, (AList.lookup_insert_ne same).trans inSequence, within⟩

/-- The offset has moved on, or in front of the data. -/
def Forward (before after : Int) : Prop := before < after ∨ after < 0

/-- A length that does not lead back into the data leads on, or in front of the data. -/
theorem forward_of_length {data : Bytes} (array : data.length < 2 ^ 31)
    {place length contents : Int} {tag : UInt8} (header : Header data place tag length contents)
    (leads : 0 ≤ length ∨ contents + length < 0) (stop : Int) :
    Forward place (wrap32 (contents + length)) ∧
      ((0 ≤ length ∧ contents + length ≤ stop ∧ contents + length ≤ data.length) ∨
        Exhausted data stop (wrap32 (contents + length))) := by
  obtain ⟨nonneg, ahead, inside⟩ := header.bounds
  obtain ⟨large, small⟩ := header.length_range
  by_cases narrow : contents + length < 2 ^ 31
  · rw [wrap32_of_range (by omega) narrow]
    unfold Forward Exhausted
    omega
  · -- The sum overflows to a negative number.
    have wrapped : wrap32 (contents + length) = contents + length - 2 ^ 32 := by
      unfold wrap32
      rw [Int.bmod_def]
      split <;> omega
    rw [wrapped]
    unfold Forward Exhausted
    omega

theorem Sound.next {data : Bytes} {fields fields' : Fields}
    {parser parser' : SGXExtensionASN1Parser} (array : data.length < 2 ^ 31)
    (contained : ValuesContained data) (sound : Sound data fields parser)
    (more : parser.offset < fields.stop)
    (ran : round data fields parser = .ok (.next fields' parser')) :
    Sound data fields' parser' ∧ Forward parser.offset parser'.offset := by
  obtain ⟨place, begun, pending, recorded⟩ := sound
  obtain ⟨nonneg, here, found⟩ := round_cases array ran
  cases found with
  | key header isKey added =>
      obtain ⟨-, ahead, -⟩ := header.bounds
      have moved := record_offset added
      dsimp only at moved
      -- A value that ends too late leaves no room for a key behind it.
      have within : ∀ value, fields.value = some value →
          Within data fields.start fields.stop value := by
        intro value isValue
        apply (pending value isValue).resolve_right
        unfold Exhausted
        omega
      refine ⟨⟨?_, ?_, fun value isValue => .inl (within value isValue), ?_⟩, ?_⟩
      · rw [moved]
        exact place.behindKey more header isKey
      · rw [moved]
        dsimp only
        omega
      · refine Recorded.record (recorded.moved _) ?_ added
        intro _ value _ isValue
        exact within value isValue
      · rw [moved]
        unfold Forward
        omega
  | @value tag length contents _ header isValue added =>
      obtain ⟨leads, fits⟩ := contained _ _ _ _ tag length contents place more header isValue
      obtain ⟨-, ahead, -⟩ := header.bounds
      obtain ⟨forward, inside⟩ := forward_of_length array header leads fields.stop
      have moved := record_offset added
      dsimp only at moved
      have within : 0 ≤ length ∧ contents + length ≤ fields.stop ∧
          contents + length ≤ data.length →
          Within data fields.start fields.stop ⟨contents, length⟩ := by
        rintro ⟨positive, last, inData⟩
        exact ⟨by dsimp only; omega, by dsimp only; omega, positive, last, inData⟩
      refine ⟨⟨?_, ?_, ?_, ?_⟩, ?_⟩
      · rw [moved]
        exact place.behindValue more header isValue
      · rw [moved]
        unfold Forward at forward
        dsimp only
        omega
      · intro value same
        cases same
        rw [moved]
        exact inside.imp_left within
      · refine Recorded.record (recorded.moved _) ?_ added
        intro key value isKey same
        cases same
        exact within (fits (Option.isSome_iff_exists.mpr ⟨key, isKey⟩))
      · rw [moved]
        exact forward

/-- The tag of a sequence and its length have been read. -/
theorem Sound.enter {data : Bytes} {fields inner : Fields}
    {parser behind parser' : SGXExtensionASN1Parser} (array : data.length < 2 ^ 31)
    (sound : Sound data fields parser) (more : parser.offset < fields.stop)
    (ran : round data fields parser = .ok (.sequence behind))
    (entered : enter data behind = .ok (inner, parser')) :
    Sound data inner parser' ∧ parser.offset < parser'.offset ∧ 0 ≤ parser.offset ∧
      ∀ keyed last, Place data inner.start inner.stop keyed last →
        inner.stop ≤ last → Place data fields.start fields.stop false last := by
  obtain ⟨nonneg, -, found⟩ := round_cases array ran
  cases found with
  | sequence tag =>
      obtain ⟨length, contents, read, rfl, rfl⟩ := enter_ok entered
      obtain ⟨octet, isSequence, header⟩ := header_of_reads array tag read
      obtain ⟨-, ahead, -⟩ := header.bounds
      refine ⟨⟨sound.place.inSequence more header isSequence, .inl le_rfl, ?_, sound.recorded⟩,
        ahead, nonneg, ?_⟩
      · intro value isValue
        cases isValue
      · intro keyed last inside ended
        exact sound.place.behindSequence more header isSequence inside ended

/-- The loop has come to its end, at a place of its sequence behind the last element. -/
def Ended (data : Bytes) (fields : Fields) (parser : SGXExtensionASN1Parser) (result : Result) :
    Prop :=
  ∃ outcome, result = some outcome ∧ ∀ parser', outcome = .ok parser' →
    (parser'.offset = parser.offset ∨
      0 ≤ parser.offset ∧ Forward parser.offset parser'.offset) ∧
      (∃ keyed, Place data fields.start fields.stop keyed parser'.offset) ∧
      fields.stop ≤ parser'.offset ∧ Recorded data parser'

theorem Ended.error {data : Bytes} {fields : Fields} {parser : SGXExtensionASN1Parser}
    (error : ParserError) : Ended data fields parser (some (.error error)) := by
  refine ⟨.error error, rfl, ?_⟩
  intro parser' impossible
  cases impossible

theorem Ended.earlier {data : Bytes} {fields fields' : Fields}
    {first parser : SGXExtensionASN1Parser} {result : Result}
    (ended : Ended data fields' parser result) (start : fields'.start = fields.start)
    (stop : fields'.stop = fields.stop) (nonneg : 0 ≤ first.offset)
    (forward : Forward first.offset parser.offset) : Ended data fields first result := by
  obtain ⟨outcome, ran, facts⟩ := ended
  refine ⟨outcome, ran, ?_⟩
  intro parser' returned
  obtain ⟨further, place, last, recorded⟩ := facts parser' returned
  rw [start, stop] at place
  refine ⟨.inr ⟨nonneg, ?_⟩, place, stop ▸ last, recorded⟩
  unfold Forward at forward further ⊢
  omega

/-- The sequence is behind, and the loop goes on after it. -/
theorem Ended.leave {data : Bytes} {fields inner : Fields}
    {parser behind parser' after : SGXExtensionASN1Parser}
    (ended : Ended data inner parser' (some (.ok after))) (array : data.length < 2 ^ 31)
    (sound : Sound data fields parser) (more : parser.offset < fields.stop)
    (ran : round data fields parser = .ok (.sequence behind))
    (entered : enter data behind = .ok (inner, parser')) :
    Sound data fields.reset after ∧ Forward parser.offset after.offset := by
  obtain ⟨-, ahead, nonneg, behindIt⟩ := sound.enter array more ran entered
  obtain ⟨_, same, facts⟩ := ended
  obtain ⟨further, ⟨keyed, place⟩, last, recorded⟩ := facts after (Option.some.inj same).symm
  have forward : Forward parser.offset after.offset := by
    unfold Forward at further ⊢
    omega
  refine ⟨⟨behindIt keyed _ place last, ?_, ?_, recorded⟩, forward⟩
  · have begun := sound.begun
    unfold Forward at forward
    unfold Fields.reset
    dsimp only
    omega
  · intro value isValue
    cases isValue

theorem round_fields {data : Bytes} (array : data.length < 2 ^ 31) {fields fields' : Fields}
    {parser parser' : SGXExtensionASN1Parser}
    (ran : round data fields parser = .ok (.next fields' parser')) :
    fields'.start = fields.start ∧ fields'.stop = fields.stop := by
  obtain ⟨-, -, found⟩ := round_cases array ran
  cases found with
  | key header isKey recorded => exact ⟨rfl, rfl⟩
  | value header isValue recorded => exact ⟨rfl, rfl⟩

/-- By induction on the fuel, of which a round takes one, and of the data that is left at least one
byte.  In front of the data the next round throws. -/
theorem decodeFields_ended {data : Bytes} (array : data.length < 2 ^ 31)
    (contained : ValuesContained data) {fuel : Nat} {fields : Fields}
    {parser : SGXExtensionASN1Parser} (sound : Sound data fields parser) (some_fuel : 0 < fuel)
    (enough : parser.offset < 0 ∨ data.length - parser.offset < fuel) :
    Ended data fields parser (decodeFields data fuel fields parser) := by
  induction fuel generalizing fields parser with
  | zero => omega
  | succ fuel ih =>
      rw [decodeFields]
      by_cases more : parser.offset < fields.stop
      · rw [if_pos more]
        cases ran : round data fields parser with
        | error error => exact .error error
        | ok result =>
            obtain ⟨nonneg, here, -⟩ := round_cases array ran
            cases result with
            | next fields' parser' =>
                obtain ⟨next, forward⟩ := sound.next array contained more ran
                obtain ⟨start, stop⟩ := round_fields array ran
                have left : parser'.offset < 0 ∨ data.length - parser'.offset < fuel := by
                  unfold Forward at forward
                  omega
                exact (ih next (by omega) left).earlier start stop nonneg forward
            | sequence behind =>
                dsimp only
                cases entered : enter data behind with
                | error error => exact .error error
                | ok result =>
                    obtain ⟨inner, parser'⟩ := result
                    obtain ⟨began, ahead, -⟩ := sound.enter array more ran entered
                    obtain ⟨outcome, decoded, facts⟩ := ih began (by omega) (by omega)
                    dsimp only
                    rw [decoded]
                    cases outcome with
                    | error error => exact .error error
                    | ok after =>
                        have inside : Ended data inner parser' (some (.ok after)) :=
                          ⟨_, rfl, facts⟩
                        obtain ⟨next, forward⟩ := inside.leave array sound more ran entered
                        have left : after.offset < 0 ∨ data.length - after.offset < fuel := by
                          unfold Forward at forward
                          omega
                        exact (ih next (by omega) left).earlier rfl rfl nonneg forward
      · rw [if_neg more]
        refine ⟨.ok parser, rfl, ?_⟩
        intro parser' same
        cases same
        exact ⟨.inl rfl, ⟨_, sound.place⟩, by omega, sound.recorded⟩

theorem begin_ok {data : Bytes} (array : data.length < 2 ^ 31) {parser : SGXExtensionASN1Parser}
    (begun : begin data = .ok parser) :
    parser = ⟨1, ∅, ∅, ∅⟩ ∧ readUByte data 0 = .ok (OCTSTR_TAG, 1) := by
  rw [begin] at begun
  split at begun
  · cases begun
  · obtain ⟨⟨tag, offset⟩, read, rest⟩ := bind_eq_ok begun
    obtain ⟨-, -, -, -, -, rfl⟩ := readUByte_ok array read
    dsimp only at rest
    split at rest
    · rename_i isOctets
      cases rest
      rw [isOctets] at read
      exact ⟨rfl, read⟩
    · cases rest

theorem recorded_empty (data : Bytes) (offset : Int) : Recorded data ⟨offset, ∅, ∅, ∅⟩ := by
  intro key value found
  rw [AList.lookup_empty] at found
  cases found

theorem getBytes_of_recorded {data : Bytes} {parser : SGXExtensionASN1Parser}
    (recorded : Recorded data parser) {key : JString} (member : key ∈ parser.keys) :
    ∃ bytes, getBytes data parser key = .ok bytes := by
  obtain ⟨value, found⟩ := Option.isSome_iff_exists.mp (AList.lookup_isSome.mpr member)
  obtain ⟨start, stop, -, within⟩ := recorded key value found
  obtain ⟨-, nonneg, length, -, inside⟩ := within
  refine ⟨(data.drop value.offset.toNat).take value.length.toNat, ?_⟩
  have position : getValue parser key = .ok value := by
    rw [getValue, found]
  rw [getBytes, bind_of_ok position, wrap, if_pos ⟨nonneg, by omega, length, by omega⟩]

/-- More fuel changes nothing once the loop has come to its end. -/
theorem decodeFields_mono {data : Bytes} {fuel : Nat} {fields : Fields}
    {parser : SGXExtensionASN1Parser} {outcome : Except ParserError SGXExtensionASN1Parser}
    (ended : decodeFields data fuel fields parser = some outcome) :
    decodeFields data (fuel + 1) fields parser = some outcome := by
  induction fuel generalizing fields parser outcome with
  | zero => cases ended
  | succ fuel ih =>
      rw [decodeFields] at ended ⊢
      by_cases more : parser.offset < fields.stop
      · rw [if_pos more] at ended ⊢
        cases ran : round data fields parser with
        | error error =>
            rw [ran] at ended
            exact ended
        | ok result =>
            rw [ran] at ended
            cases result with
            | next fields' parser' => exact ih ended
            | sequence behind =>
                dsimp only at ended ⊢
                cases entered : enter data behind with
                | error error =>
                    rw [entered] at ended
                    exact ended
                | ok result =>
                    rw [entered] at ended
                    dsimp only at ended ⊢
                    cases decoded : decodeFields data fuel result.1 result.2 with
                    | none =>
                        rw [decoded] at ended
                        cases ended
                    | some inner =>
                        rw [decoded] at ended
                        rw [ih decoded]
                        cases inner with
                        | error error => exact ended
                        | ok parser' => exact ih ended
      · rw [if_neg more] at ended ⊢
        exact ended

theorem decodeFields_mono_le {data : Bytes} {fuel more : Nat} (le : fuel ≤ more) {fields : Fields}
    {parser : SGXExtensionASN1Parser} {outcome : Except ParserError SGXExtensionASN1Parser}
    (ended : decodeFields data fuel fields parser = some outcome) :
    decodeFields data more fields parser = some outcome := by
  induction le with
  | refl => exact ended
  | step _ ih => exact decodeFields_mono ih

theorem decodeFields_unique {data : Bytes} {fuel fuel' : Nat} {fields : Fields}
    {parser : SGXExtensionASN1Parser} {outcome outcome' : Except ParserError SGXExtensionASN1Parser}
    (ended : decodeFields data fuel fields parser = some outcome)
    (ended' : decodeFields data fuel' fields parser = some outcome') : outcome = outcome' := by
  have first := decodeFields_mono_le (Nat.le_max_left fuel fuel') ended
  have second := decodeFields_mono_le (Nat.le_max_right fuel fuel') ended'
  rw [first] at second
  exact Option.some.inj second

/-- A place in a sequence. -/
structure Spot where
  start : Int
  stop : Int
  keyed : Bool
  place : Int
  deriving DecidableEq, Repr

/-- Where an element leads to.  `spots` has the places at which a sequence may end. -/
def successors (spots : List Spot) (spot : Spot) (tag : UInt8) (length contents : Int) :
    List Spot :=
  if tag.toNat = OID_TAG then [{ spot with keyed := true, place := contents + max 1 length }]
  else if tag.toNat = SEQ_TAG then
    ⟨contents, wrap32 (contents + length), false, contents⟩ ::
      (spots.filter fun last => last.start = contents ∧ last.stop = wrap32 (contents + length) ∧
        last.stop ≤ last.place).map fun last => { spot with keyed := false, place := last.place }
  else [{ spot with place := wrap32 (contents + length) }]

/-- The elements at the spots lead to none but the spots. -/
def Closed (data : Bytes) (spots : List Spot) : Prop :=
  (∀ found ∈ headerAt data 0,
    ⟨found.2.2, wrap32 (found.2.2 + found.2.1), false, found.2.2⟩ ∈ spots) ∧
    ∀ spot ∈ spots, spot.place < spot.stop → ∀ found ∈ headerAt data spot.place,
      ∀ next ∈ successors spots spot found.1 found.2.1 found.2.2, next ∈ spots

instance (data : Bytes) (spots : List Spot) : Decidable (Closed data spots) :=
  inferInstanceAs (Decidable (_ ∧ _))

theorem Place.mem_of_closed {data : Bytes} {spots : List Spot} (closed : Closed data spots)
    {start stop here : Int} {keyed : Bool} (place : Place data start stop keyed here) :
    ⟨start, stop, keyed, here⟩ ∈ spots := by
  induction place with
  | first header => exact closed.1 _ header.headerAt
  | behindKey here more header isKey member =>
      refine closed.2 _ member more _ header.headerAt _ ?_
      rw [successors, if_pos isKey]
      exact List.mem_singleton_self _
  | behindValue here more header isValue member =>
      refine closed.2 _ member more _ header.headerAt _ ?_
      rw [successors, if_neg, if_neg]
      · exact List.mem_singleton_self _
      · intro isSequence
        rw [isSequence] at isValue
        exact absurd isValue (by decide)
      · intro isKey
        rw [isKey] at isValue
        exact absurd isValue (by decide)
  | inSequence here more header isSequence member =>
      refine closed.2 _ member more _ header.headerAt _ ?_
      rw [successors, if_neg (by rw [isSequence]; decide), if_pos isSequence]
      exact List.mem_cons_self
  | behindSequence here more header isSequence inside ended member last =>
      refine closed.2 _ member more _ header.headerAt _ ?_
      rw [successors, if_neg (by rw [isSequence]; decide), if_pos isSequence]
      refine List.mem_cons_of_mem _ (List.mem_map.mpr ⟨_, List.mem_filter.mpr ⟨last, ?_⟩, rfl⟩)
      simpa using ended

theorem valuesContained_of_closed {data : Bytes} {spots : List Spot} (closed : Closed data spots)
    (checked : ∀ spot ∈ spots, spot.place < spot.stop → ∀ found ∈ headerAt data spot.place,
      found.1.toNat ∈ [OCTSTR_TAG, INT_TAG, ENUM_TAG, BOOL_TAG] →
        (0 ≤ found.2.1 ∨ found.2.2 + found.2.1 < 0) ∧ (spot.keyed = true → 0 ≤ found.2.1 ∧
          found.2.2 + found.2.1 ≤ spot.stop ∧ found.2.2 + found.2.1 ≤ data.length)) :
    ValuesContained data := by
  intro start stop keyed here tag length contents place more header isValue
  exact checked ⟨start, stop, keyed, here⟩ (place.mem_of_closed closed) more _ header.headerAt
    isValue

/-- A key and a value in a sequence, and behind it an integer without a key that is said to have 127
bytes. -/
def keyAndValue : Bytes :=
  [0x04, 0x0C, 0x30, 0x08, 0x06, 0x03, 0x2A, 0x86, 0x48, 0x02, 0x01, 0x03, 0x02, 0x7F]

/-- The length of the octet string is -6, which leads back to its tag. -/
def backwards : Bytes := [0x04, 0x06, 0x04, 0x84, 0xFF, 0xFF, 0xFF, 0xFA]

theorem backwards_loops (fuel : Nat) (value : Option ValuePos) (type : Nat) :
    decodeFields backwards fuel ⟨2, 8, none, value, type⟩ ⟨2, ∅, ∅, ∅⟩ = none := by
  induction fuel generalizing value type with
  | zero => rfl
  | succ fuel ih =>
      have tag : readUByte backwards 2 = .ok (OCTSTR_TAG, 3) := rfl
      have position : valuePos backwards 3 = .ok (⟨8, -6⟩, 2) :=
        eq_ok_of_toOption (by decide +kernel)
      have again : round backwards ⟨2, 8, none, value, type⟩ ⟨2, ∅, ∅, ∅⟩ =
          .ok (.next ⟨2, 8, none, some ⟨8, -6⟩, OCTSTR_TAG⟩ ⟨2, ∅, ∅, ∅⟩) := by
        rw [round, bind_of_ok tag]
        dsimp only
        rw [if_neg (by decide), if_neg (by decide), if_pos (by decide), bind_of_ok position]
        rfl
      have more : (2 : Int) < 8 := by decide
      rw [decodeFields, if_pos more, again]
      exact ih (some ⟨8, -6⟩) OCTSTR_TAG

/-- The integer is said to have 127 bytes, of which there are none. -/
def overlong : Bytes := [0x04, 0x05, 0x06, 0x01, 0x01, 0x02, 0x7F]

end Conclave.Common.SGXExtensionASN1Parser
