import ConclaveFormal.Lib.Decimal

/-!
# Tags, lengths and object identifiers

The encodings of ASN.1 values: the short and the long forms of a length, a value behind its tag and
its length, and the octets and the dotted text of an object identifier.  `Present data offset bytes`
says that the bytes stand in the data at that offset.
-/

set_option autoImplicit false

namespace Conclave.Lib

/-! ## Bytes at an offset -/

def Present (data : Bytes) (offset : Int) (bytes : Bytes) : Prop :=
  ∃ before after, data = before ++ (bytes ++ after) ∧ offset = (before.length : Int)

namespace Present

variable {data front back : Bytes} {offset : Int}

theorem whole (data : Bytes) : Present data 0 data := ⟨[], [], by simp, rfl⟩

theorem left (present : Present data offset (front ++ back)) : Present data offset front := by
  obtain ⟨before, after, split, place⟩ := present
  exact ⟨before, back ++ after, by rw [split, List.append_assoc], place⟩

theorem right (present : Present data offset (front ++ back)) :
    Present data (offset + front.length) back := by
  obtain ⟨before, after, split, place⟩ := present
  refine ⟨before ++ front, after, ?_, ?_⟩
  · rw [split]
    simp only [List.append_assoc]
  · rw [place, List.length_append]
    push_cast
    rfl

theorem tail {byte : UInt8} (present : Present data offset (byte :: back)) :
    Present data (offset + 1) back := by
  have split : Present data offset ([byte] ++ back) := present
  exact split.right

theorem nil (nonneg : 0 ≤ offset) (inside : offset ≤ data.length) : Present data offset [] := by
  refine ⟨data.take offset.toNat, data.drop offset.toNat, ?_, ?_⟩
  · rw [List.nil_append, List.take_append_drop]
  · rw [List.length_take]
    omega

theorem cons {byte : UInt8} (nonneg : 0 ≤ offset) (first : data[offset.toNat]? = some byte)
    (rest : Present data (offset + 1) back) : Present data offset (byte :: back) := by
  obtain ⟨before, after, split, place⟩ := rest
  rcases List.eq_nil_or_concat before with rfl | ⟨front, last, rfl⟩
  · rw [List.length_nil] at place
    omega
  · rw [List.concat_eq_append] at split place
    rw [List.length_append, List.length_singleton] at place
    have index : offset.toNat = front.length := by omega
    rw [split, index, List.append_assoc, List.getElem?_append_right le_rfl, Nat.sub_self,
      List.singleton_append, List.getElem?_cons_zero, Option.some.injEq] at first
    subst first
    refine ⟨front, after, ?_, by omega⟩
    rw [split, List.append_assoc]
    rfl

theorem bounds (present : Present data offset front) :
    0 ≤ offset ∧ offset + front.length ≤ data.length := by
  obtain ⟨before, after, split, place⟩ := present
  rw [split, place]
  simp only [List.length_append]
  omega

theorem getElem? {byte : UInt8} (present : Present data offset (byte :: back)) :
    data[offset.toNat]? = some byte := by
  obtain ⟨before, after, split, place⟩ := present
  rw [split, place, Int.toNat_natCast, List.cons_append, List.getElem?_append_right le_rfl,
    Nat.sub_self, List.getElem?_cons_zero]

theorem slice (present : Present data offset front) :
    (data.drop offset.toNat).take front.length = front := by
  obtain ⟨before, after, split, place⟩ := present
  rw [split, place, Int.toNat_natCast, List.drop_left, List.take_left]

end Present

/-! ## Lengths -/

/-- The short form is one octet below 128.  The long form tells how many octets follow; leading
zeros are allowed in it. -/
inductive LengthForm (length : Nat) : Bytes → Prop where
  | short (small : length < 128) : LengthForm length [UInt8.ofNat length]
  | long {octets : Bytes} (nonempty : octets ≠ []) (few : octets.length < 127)
      (value : ofBigEndian octets = length) :
      LengthForm length (UInt8.ofNat (128 + octets.length) :: octets)

/-- The octets of a length to a reader that has 32 bits for it.  The long form is any octets, taken
in two's complement. -/
inductive Length32 : Int → Bytes → Prop where
  | short {octet : UInt8} (small : octet.toNat < 128) : Length32 octet.toNat [octet]
  | long {first : UInt8} {octets : Bytes} (count : first.toNat = 128 + octets.length) :
      Length32 (wrap32 (ofBigEndian octets)) (first :: octets)

/-- A tag and a length stand at `place`, and `contents` is the place behind them.  Nothing is said
about what is there. -/
def Header (data : Bytes) (place : Int) (tag : UInt8) (length contents : Int) : Prop :=
  ∃ octets, Length32 length octets ∧ Present data place (tag :: octets) ∧
    contents = place + 1 + octets.length

theorem Header.bounds {data : Bytes} {place length contents : Int} {tag : UInt8}
    (header : Header data place tag length contents) :
    0 ≤ place ∧ place < contents ∧ contents ≤ data.length := by
  obtain ⟨octets, -, present, rfl⟩ := header
  have inside := present.bounds
  rw [List.length_cons] at inside
  omega

theorem Header.length_range {data : Bytes} {place length contents : Int} {tag : UInt8}
    (header : Header data place tag length contents) : -2 ^ 31 ≤ length ∧ length < 2 ^ 31 := by
  obtain ⟨octets, form, -, -⟩ := header
  cases form with
  | short small => omega
  | long count => exact wrap32_range _

/-- The tag, the length and the place behind them. -/
def headerAt (data : Bytes) (place : Int) : Option (UInt8 × Int × Int) :=
  match data.drop place.toNat with
  | tag :: first :: rest =>
      if first.toNat < 128 then some (tag, first.toNat, place + 2)
      else
        let count := first.toNat - 128
        if count ≤ rest.length then
          some (tag, wrap32 (ofBigEndian (rest.take count)), place + 2 + count)
        else none
  | _ => none

theorem Header.headerAt {data : Bytes} {place length contents : Int} {tag : UInt8}
    (header : Header data place tag length contents) :
    headerAt data place = some (tag, length, contents) := by
  obtain ⟨octets, form, ⟨before, after, split, rfl⟩, rfl⟩ := header
  rw [Lib.headerAt, split, Int.toNat_natCast, List.drop_left]
  cases form with
  | short small =>
      simp only [List.cons_append, if_pos small, List.length_singleton, Option.some.injEq,
        Prod.mk.injEq, true_and]
      omega
  | @long first octets count =>
      have size : first.toNat - 128 = octets.length := by omega
      simp only [List.cons_append, size, List.length_append, List.length_cons, List.take_left]
      rw [if_neg (by omega), if_pos (by omega)]
      simp only [Option.some.injEq, Prod.mk.injEq, true_and]
      push_cast
      omega

/-- A value behind its tag and its length. -/
inductive Tlv (tag : UInt8) (content : Bytes) : Bytes → Prop where
  | mk {form : Bytes} (length : LengthForm content.length form) :
      Tlv tag content (tag :: (form ++ content))

/-! ## Object identifiers -/

/-- The digits of a number in base 128, the most significant first; all but the last one carry the
continuation bit. -/
def base128 (value : Nat) : Bytes :=
  (Nat.digits 128 (value / 128)).reverse.map (fun digit => UInt8.ofNat (128 + digit)) ++
    [UInt8.ofNat (value % 128)]

def horner (value : Nat) (digits : List Nat) : Nat :=
  digits.foldl (fun value digit => value * 128 + digit) value

theorem horner_cons (value digit : Nat) (digits : List Nat) :
    horner value (digit :: digits) = horner (value * 128 + digit) digits := rfl

theorem le_horner (value : Nat) (digits : List Nat) : value ≤ horner value digits := by
  induction digits generalizing value with
  | nil => exact le_rfl
  | cons digit digits ih =>
      have later := ih (value * 128 + digit)
      rw [horner_cons]
      omega

theorem horner_digits (value : Nat) :
    horner 0 (Nat.digits 128 value).reverse = value := by
  rw [horner, List.foldl_reverse]
  conv_rhs => rw [← Nat.ofDigits_digits 128 value, Nat.ofDigits_eq_foldr]
  congr 1
  funext digit value
  simp
  ring

def dot : UInt16 := 0x2E

/-- The first two numbers share an octet, which is below 120. -/
structure ObjectIdentifier where
  root : Nat
  second : Nat
  arcs : List Nat
  root_lt : root < 3
  second_lt : second < 40
  arcs_lt : ∀ arc ∈ arcs, arc < 2 ^ 31
  deriving DecidableEq

namespace ObjectIdentifier

def numbers (id : ObjectIdentifier) : List Nat := id.root :: id.second :: id.arcs

def octets (id : ObjectIdentifier) : Bytes :=
  UInt8.ofNat (40 * id.root + id.second) :: id.arcs.flatMap base128

def text (id : ObjectIdentifier) : JString := [dot].intercalate (id.numbers.map natText)

theorem intercalate_cons (first : JString) (rest : List JString) :
    [dot].intercalate (first :: rest) = first ++ rest.flatMap fun text => dot :: text := by
  induction rest generalizing first with
  | nil => simp [List.intercalate]
  | cons next rest ih =>
      have inner := ih next
      simp only [List.intercalate] at inner ⊢
      rw [List.intersperse_cons_cons, List.flatten_cons, List.flatten_cons, inner]
      simp

theorem text_eq (id : ObjectIdentifier) :
    id.text = natText id.root ++ dot :: natText id.second ++
      id.arcs.flatMap fun arc => dot :: natText arc := by
  rw [text, numbers, List.map_cons, intercalate_cons, List.map_cons, List.flatMap_cons,
    List.flatMap_map, List.append_assoc]

end ObjectIdentifier

theorem natText_inj {first second : Nat} (same : natText first = natText second) :
    first = second := by
  obtain ⟨digits, text, -, small, total⟩ := natText_digits first
  obtain ⟨digits', text', -, small', total'⟩ := natText_digits second
  have read := mapM_digits asciiDigit_readsAscii small
  have read' := mapM_digits asciiDigit_readsAscii small'
  rw [← text, same, text', read', Option.some.injEq] at read
  rw [← total, ← total', read]

theorem dot_notMem_natText (value : Nat) : dot ∉ natText value := by
  intro member
  have digit := Period.natText_isDigit value dot member
  exact absurd digit (by decide)

namespace ObjectIdentifier

/-- The dotted text of an object identifier tells it apart. -/
theorem text_inj {first second : ObjectIdentifier} (same : first.text = second.text) :
    first = second := by
  have parts (id : ObjectIdentifier) : id.text.splitOn dot = id.numbers.map natText := by
    apply List.splitOn_intercalate
    · intro text member
      obtain ⟨value, -, rfl⟩ := List.mem_map.mp member
      exact dot_notMem_natText value
    · exact List.cons_ne_nil _ _
  have numbers : first.numbers.map natText = second.numbers.map natText := by
    rw [← parts first, ← parts second, same]
  have equal := List.map_injective_iff.mpr (fun _ _ => natText_inj) numbers
  obtain ⟨root, second', arcs⟩ := first
  obtain ⟨root', second'', arcs'⟩ := second
  simp only [ObjectIdentifier.numbers, List.cons.injEq] at equal
  obtain ⟨rfl, rfl, rfl⟩ := equal
  rfl

end ObjectIdentifier

end Conclave.Lib
