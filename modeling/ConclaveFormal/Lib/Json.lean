import ConclaveFormal.Lib.DataStream

/-!
# JSON texts

`Value text json` says that the characters `text` are a JSON value (RFC 8259) with
the value `json`.  An object keeps its members in the order of the text, and the
last one of a name is the one that is found.  `parseValue` is a parser, and every
text of the grammar is read by it.
-/

set_option autoImplicit false

namespace Conclave.Lib

inductive Json where
  | null
  | bool (value : Bool)
  | int (value : Int)
  | decimal (text : List Char)
  | string (text : JString)
  | array (elements : List Json)
  | object (members : List (JString × Json))

namespace Json

def get (json : Json) (fieldName : JString) : Option Json :=
  match json with
  | object members =>
      (members.reverse.find? fun member => member.1 == fieldName).map Prod.snd
  | _ => none

def isObject : Json → Bool
  | object _ => true
  | _ => false

/-! ## Characters -/

def isWs (c : Char) : Bool := c == ' ' || c == '\t' || c == '\n' || c == '\r'

def isDigit (c : Char) : Bool := '0' ≤ c && c ≤ '9'

def isNumberChar (c : Char) : Bool :=
  isDigit c || c == '-' || c == '+' || c == '.' || c == 'e' || c == 'E'

def hexDigit (c : Char) : Option Nat :=
  if isDigit c then some (c.toNat - '0'.toNat)
  else if 'a' ≤ c && c ≤ 'f' then some (c.toNat - 'a'.toNat + 10)
  else if 'A' ≤ c && c ≤ 'F' then some (c.toNat - 'A'.toNat + 10)
  else none

def utf16 (c : Char) : JString :=
  if c.toNat < 0x10000 then [UInt16.ofNat c.toNat]
  else
    let offset := c.toNat - 0x10000
    [UInt16.ofNat (0xD800 + offset / 1024), UInt16.ofNat (0xDC00 + offset % 1024)]

def jstring (text : String) : JString := text.toList.flatMap utf16

def escapeUnit (c : Char) : Option UInt16 :=
  if c = '"' then some 0x22
  else if c = '\\' then some 0x5C
  else if c = '/' then some 0x2F
  else if c = 'b' then some 0x08
  else if c = 'f' then some 0x0C
  else if c = 'n' then some 0x0A
  else if c = 'r' then some 0x0D
  else if c = 't' then some 0x09
  else none

def unicodeUnit (first second third fourth : Char) : Option UInt16 := do
  let a ← hexDigit first
  let b ← hexDigit second
  let c ← hexDigit third
  let d ← hexDigit fourth
  return UInt16.ofNat (((a * 16 + b) * 16 + c) * 16 + d)

/-! ## Numbers -/

def digitsValue (digits : List Char) : Nat :=
  digits.foldl (fun value digit => value * 10 + (digit.toNat - '0'.toNat)) 0

def isExponent : List Char → Bool
  | [] => true
  | e :: rest =>
      let digits :=
        match rest with
        | '+' :: rest | '-' :: rest => rest
        | rest => rest
      (e == 'e' || e == 'E') && !digits.isEmpty && digits.all isDigit

def isFraction : List Char → Bool
  | '.' :: rest => !(rest.takeWhile isDigit).isEmpty && isExponent (rest.dropWhile isDigit)
  | rest => isExponent rest

/-- The value of a number; those with a fraction or an exponent keep their text. -/
def numberValue (text : List Char) : Option Json :=
  let (negative, body) :=
    match text with
    | '-' :: rest => (true, rest)
    | rest => (false, rest)
  let digits := body.takeWhile isDigit
  let tail := body.dropWhile isDigit
  if digits.isEmpty || (digits.length > 1 && digits.head? == some '0') then none
  else if tail.isEmpty then
    some (.int (if negative then -(digitsValue digits : Int) else digitsValue digits))
  else if isFraction tail then some (.decimal text)
  else none

/-! ## The grammar -/

def Ws (text : List Char) : Prop := ∀ c ∈ text, isWs c = true

/-- What stands between the quotes of a string. -/
inductive Chars : List Char → JString → Prop where
  | nil : Chars [] []
  | plain {c : Char} {text : List Char} {units : JString} (notQuote : c ≠ '"')
      (notEscape : c ≠ '\\') (printable : 0x20 ≤ c.toNat) (rest : Chars text units) :
      Chars (c :: text) (utf16 c ++ units)
  | escape {c : Char} {unit : UInt16} {text : List Char} {units : JString}
      (escaped : escapeUnit c = some unit) (rest : Chars text units) :
      Chars ('\\' :: c :: text) (unit :: units)
  | unicode {first second third fourth : Char} {unit : UInt16} {text : List Char}
      {units : JString} (escaped : unicodeUnit first second third fourth = some unit)
      (rest : Chars text units) :
      Chars ('\\' :: 'u' :: first :: second :: third :: fourth :: text) (unit :: units)

mutual

inductive Value : List Char → Json → Prop where
  | nullLiteral : Value ['n', 'u', 'l', 'l'] .null
  | trueLiteral : Value ['t', 'r', 'u', 'e'] (.bool true)
  | falseLiteral : Value ['f', 'a', 'l', 's', 'e'] (.bool false)
  | number {text : List Char} {json : Json} (chars : ∀ c ∈ text, isNumberChar c = true)
      (value : numberValue text = some json) : Value text json
  | string {text : List Char} {units : JString} (chars : Chars text units) :
      Value ('"' :: (text ++ ['"'])) (.string units)
  | emptyArray {ws : List Char} (blank : Ws ws) : Value ('[' :: (ws ++ [']'])) (.array [])
  | array {text : List Char} {elements : List Json} (body : Elements text elements) :
      Value ('[' :: text) (.array elements)
  | emptyObject {ws : List Char} (blank : Ws ws) : Value ('{' :: (ws ++ ['}'])) (.object [])
  | object {text : List Char} {members : List (JString × Json)} (body : Members text members) :
      Value ('{' :: text) (.object members)

/-- Elements up to and including the closing bracket. -/
inductive Elements : List Char → List Json → Prop where
  | last {before text after : List Char} {json : Json} (blankBefore : Ws before)
      (value : Value text json) (blankAfter : Ws after) :
      Elements (before ++ (text ++ (after ++ [']']))) [json]
  | more {before text after rest : List Char} {json : Json} {elements : List Json}
      (blankBefore : Ws before) (value : Value text json) (blankAfter : Ws after)
      (later : Elements rest elements) :
      Elements (before ++ (text ++ (after ++ ',' :: rest))) (json :: elements)

/-- Members up to and including the closing brace. -/
inductive Members : List Char → List (JString × Json) → Prop where
  | last {before name middle between text after : List Char} {key : JString} {json : Json}
      (blankBefore : Ws before) (chars : Chars name key) (blankMiddle : Ws middle)
      (blankBetween : Ws between) (value : Value text json) (blankAfter : Ws after) :
      Members (before ++ '"' :: (name ++ '"' :: (middle ++ ':' :: (between ++
        (text ++ (after ++ ['}'])))))) [(key, json)]
  | more {before name middle between text after rest : List Char} {key : JString} {json : Json}
      {members : List (JString × Json)} (blankBefore : Ws before) (chars : Chars name key)
      (blankMiddle : Ws middle) (blankBetween : Ws between) (value : Value text json)
      (blankAfter : Ws after) (later : Members rest members) :
      Members (before ++ '"' :: (name ++ '"' :: (middle ++ ':' :: (between ++
        (text ++ (after ++ ',' :: rest)))))) ((key, json) :: members)

end

/-! ## A parser -/

def scanString : List Char → Option (JString × List Char)
  | [] => none
  | c :: rest =>
      if c = '"' then some ([], rest)
      else if c = '\\' then
        match rest with
        | [] => none
        | e :: rest =>
            if e = 'u' then
              match rest with
              | first :: second :: third :: fourth :: rest =>
                  (unicodeUnit first second third fourth).bind fun unit =>
                    (scanString rest).map fun (units, rest) => (unit :: units, rest)
              | _ => none
            else
              (escapeUnit e).bind fun unit =>
                (scanString rest).map fun (units, rest) => (unit :: units, rest)
      else if 0x20 ≤ c.toNat then
        (scanString rest).map fun (units, rest) => (utf16 c ++ units, rest)
      else none

def skipWs (input : List Char) : List Char := input.dropWhile isWs

/-- The input behind white space and the given character. -/
def expect (c : Char) (input : List Char) : Option (List Char) :=
  match skipWs input with
  | [] => none
  | d :: rest => if d = c then some rest else none

def literal (text : List Char) (json : Json) (input : List Char) : Option (Json × List Char) :=
  if text.isPrefixOf input then some (json, input.drop text.length) else none

def number (input : List Char) : Option (Json × List Char) :=
  (numberValue (input.takeWhile isNumberChar)).map fun json =>
    (json, input.dropWhile isNumberChar)

mutual

def parseValue : Nat → List Char → Option (Json × List Char)
  | 0, _ => none
  | _ + 1, [] => none
  | fuel + 1, c :: rest =>
      if c = '"' then (scanString rest).map fun (units, rest) => (.string units, rest)
      else if c = '{' then
        match expect '}' rest with
        | some rest => some (.object [], rest)
        | none => (parseMembers fuel rest).map fun (members, rest) => (.object members, rest)
      else if c = '[' then
        match expect ']' rest with
        | some rest => some (.array [], rest)
        | none => (parseElements fuel rest).map fun (elements, rest) => (.array elements, rest)
      else if c = 'n' then literal ['n', 'u', 'l', 'l'] .null (c :: rest)
      else if c = 't' then literal ['t', 'r', 'u', 'e'] (.bool true) (c :: rest)
      else if c = 'f' then literal ['f', 'a', 'l', 's', 'e'] (.bool false) (c :: rest)
      else number (c :: rest)

def parseElements : Nat → List Char → Option (List Json × List Char)
  | 0, _ => none
  | fuel + 1, input =>
      (parseValue fuel (skipWs input)).bind fun (json, rest) =>
        match expect ',' rest with
        | some rest =>
            (parseElements fuel rest).map fun (elements, rest) => (json :: elements, rest)
        | none => (expect ']' rest).map fun rest => ([json], rest)

def parseMembers : Nat → List Char → Option (List (JString × Json) × List Char)
  | 0, _ => none
  | fuel + 1, input =>
      (expect '"' input).bind fun rest =>
        (scanString rest).bind fun (key, rest) =>
          (expect ':' rest).bind fun rest =>
            (parseValue fuel (skipWs rest)).bind fun (json, rest) =>
              match expect ',' rest with
              | some rest =>
                  (parseMembers fuel rest).map fun (members, rest) =>
                    ((key, json) :: members, rest)
              | none => (expect '}' rest).map fun rest => ([(key, json)], rest)

end

/-! ## Every text of the grammar is read -/

theorem scanString_chars {text : List Char} {units : JString} (chars : Chars text units)
    (rest : List Char) : scanString (text ++ '"' :: rest) = some (units, rest) := by
  induction chars with
  | nil => rw [List.nil_append, scanString.eq_def]; simp
  | plain notQuote notEscape printable _ ih =>
      rw [List.cons_append, scanString.eq_def]
      simp only [notQuote, notEscape, printable, if_true, if_false, ih, Option.map_some]
  | @escape c unit text units escaped _ ih =>
      have notUnicode : c ≠ 'u' := by
        rintro rfl
        cases escaped
      have notQuote : ('\\' : Char) ≠ '"' := by decide
      rw [List.cons_append, List.cons_append, scanString.eq_def]
      simp only [notQuote, notUnicode, if_true, if_false, escaped, Option.bind_some, ih,
        Option.map_some]
  | unicode escaped _ ih =>
      have notQuote : ('\\' : Char) ≠ '"' := by decide
      simp only [List.cons_append]
      rw [scanString.eq_def]
      simp only [notQuote, if_true, if_false, escaped, Option.bind_some, ih, Option.map_some]

theorem dropWhile_append {test : Char → Bool} {front : List Char} {c : Char}
    (all : ∀ d ∈ front, test d = true) (stop : test c = false) (rest : List Char) :
    (front ++ c :: rest).dropWhile test = c :: rest := by
  induction front with
  | nil => simp [stop]
  | cons d front ih =>
      rw [List.cons_append, List.dropWhile_cons_of_pos (all d List.mem_cons_self)]
      exact ih fun e member => all e (List.mem_cons_of_mem d member)

theorem expect_ws {ws : List Char} (blank : Ws ws) {c : Char} (visible : isWs c = false)
    (rest : List Char) : expect c (ws ++ c :: rest) = some rest := by
  rw [expect, skipWs, dropWhile_append blank visible]
  simp

theorem expect_other {ws : List Char} (blank : Ws ws) {c d : Char} (visible : isWs d = false)
    (different : d ≠ c) (rest : List Char) : expect c (ws ++ d :: rest) = none := by
  rw [expect, skipWs, dropWhile_append blank visible]
  simp [different]

/-- Numbers end where no character of a number follows. -/
def Follow (rest : List Char) : Prop :=
  ∀ c tail, rest = c :: tail → isNumberChar c = false

theorem isWs_not_numberChar {c : Char} (ws : isWs c = true) : isNumberChar c = false := by
  simp only [isWs, Bool.or_eq_true, beq_iff_eq] at ws
  rcases ws with ((rfl | rfl) | rfl) | rfl <;> rfl

theorem follow_ws {ws : List Char} (blank : Ws ws) {c : Char} (ends : isNumberChar c = false)
    (rest : List Char) : Follow (ws ++ c :: rest) := by
  intro d tail split
  cases ws with
  | nil =>
      cases split
      exact ends
  | cons e ws =>
      cases split
      exact isWs_not_numberChar (blank _ List.mem_cons_self)

theorem number_text {text : List Char} {json : Json}
    (chars : ∀ c ∈ text, isNumberChar c = true) (value : numberValue text = some json)
    {rest : List Char} (follow : Follow rest) : number (text ++ rest) = some (json, rest) := by
  have stops : rest.takeWhile isNumberChar = [] ∧ rest.dropWhile isNumberChar = rest := by
    cases rest with
    | nil => exact ⟨rfl, rfl⟩
    | cons c tail =>
        have ends := follow c tail rfl
        exact ⟨by simp [List.takeWhile, ends], by simp [List.dropWhile, ends]⟩
  rw [number, List.takeWhile_append_of_pos chars, List.dropWhile_append_of_pos chars, stops.1,
    stops.2, List.append_nil, value]
  rfl

theorem numberValue_not_object {text : List Char} {json : Json}
    (value : numberValue text = some json) : json.isObject = false := by
  simp only [numberValue] at value
  generalize (match text with
    | '-' :: rest => (true, rest)
    | rest => (false, rest)) = signed at value
  split_ifs at value
  all_goals
    cases value
    rfl

/-- A value begins with a character that is no white space and no closing bracket. -/
theorem Value.head {text : List Char} {json : Json} (value : Value text json) :
    ∃ c tail, text = c :: tail ∧ isWs c = false ∧ c ≠ ']' := by
  cases value with
  | number chars value =>
      cases text with
      | nil => cases value
      | cons c tail =>
          have digit := chars c List.mem_cons_self
          refine ⟨c, tail, rfl, ?_, ?_⟩
          · cases ws : isWs c with
            | false => rfl
            | true =>
                rw [isWs_not_numberChar ws] at digit
                cases digit
          · rintro rfl
            cases digit
  | nullLiteral => exact ⟨_, _, rfl, rfl, by decide⟩
  | trueLiteral => exact ⟨_, _, rfl, rfl, by decide⟩
  | falseLiteral => exact ⟨_, _, rfl, rfl, by decide⟩
  | string => exact ⟨_, _, rfl, rfl, by decide⟩
  | emptyArray => exact ⟨_, _, rfl, rfl, by decide⟩
  | array => exact ⟨_, _, rfl, rfl, by decide⟩
  | emptyObject => exact ⟨_, _, rfl, rfl, by decide⟩
  | object => exact ⟨_, _, rfl, rfl, by decide⟩

theorem Value.skipWs {text : List Char} {json : Json} (value : Value text json)
    {ws : List Char} (blank : Ws ws) (rest : List Char) :
    Json.skipWs (ws ++ (text ++ rest)) = text ++ rest := by
  obtain ⟨c, tail, rfl, visible, _⟩ := value.head
  exact dropWhile_append blank visible (tail ++ rest)

theorem Members.head {text : List Char} {members : List (JString × Json)}
    (body : Members text members) :
    ∃ ws tail, Ws ws ∧ text = ws ++ '"' :: tail := by
  cases body with
  | last blankBefore => exact ⟨_, _, blankBefore, rfl⟩
  | more blankBefore => exact ⟨_, _, blankBefore, rfl⟩

/-- An object ends with its closing brace. -/
theorem Members.closed {text : List Char} {members : List (JString × Json)}
    (body : Members text members) : text.getLast? = some '}' := by
  cases body with
  | last => simp [List.getLast?_append, List.getLast?_cons]
  | more _ _ _ _ _ _ later =>
      have closed := later.closed
      simp [List.getLast?_append, List.getLast?_cons, closed]

theorem Value.closed {text : List Char} {members : List (JString × Json)}
    (value : Value text (.object members)) : text.getLast? = some '}' := by
  cases value with
  | number chars value =>
      have other := numberValue_not_object value
      cases other
  | emptyObject => simp [List.getLast?_append, List.getLast?_cons]
  | object body => simp [List.getLast?_cons, body.closed]

theorem Elements.head {text : List Char} {elements : List Json}
    (body : Elements text elements) :
    ∃ ws c tail, Ws ws ∧ text = ws ++ c :: tail ∧ isWs c = false ∧ c ≠ ']' := by
  cases body with
  | last blankBefore value =>
      obtain ⟨c, tail, rfl, visible, different⟩ := value.head
      exact ⟨_, c, _, blankBefore, rfl, visible, different⟩
  | more blankBefore value =>
      obtain ⟨c, tail, rfl, visible, different⟩ := value.head
      exact ⟨_, c, _, blankBefore, rfl, visible, different⟩

theorem parseValue_string {text : List Char} {units : JString} (chars : Chars text units)
    (fuel : Nat) (rest : List Char) :
    parseValue (fuel + 1) ('"' :: (text ++ ['"']) ++ rest) = some (.string units, rest) := by
  have scanned := scanString_chars chars rest
  simp only [List.cons_append, List.append_assoc, List.nil_append, parseValue, if_true]
  rw [scanned]
  rfl

theorem parseValue_number {text : List Char} {json : Json}
    (chars : ∀ c ∈ text, isNumberChar c = true) (value : numberValue text = some json)
    (fuel : Nat) {rest : List Char} (follow : Follow rest) :
    parseValue (fuel + 1) (text ++ rest) = some (json, rest) := by
  cases text with
  | nil => cases value
  | cons c tail =>
      have read := number_text chars value follow
      have other : ∀ d, isNumberChar d = false → c ≠ d := by
        rintro d no rfl
        rw [chars c List.mem_cons_self] at no
        cases no
      simp only [List.cons_append] at read ⊢
      simp only [parseValue, other '"' rfl, other '{' rfl, other '[' rfl, other 'n' rfl,
        other 't' rfl, other 'f' rfl, if_false]
      exact read

/-- What one more unit of fuel allows to read. -/
structure Reads (fuel : Nat) : Prop where
  value : ∀ {text json rest}, Value text json → text.length ≤ fuel →
    (json.isObject = false → Follow rest) → parseValue fuel (text ++ rest) = some (json, rest)
  elements : ∀ {text elements} (rest : List Char), Elements text elements →
    text.length ≤ fuel → parseElements fuel (text ++ rest) = some (elements, rest)
  members : ∀ {text members} (rest : List Char), Members text members →
    text.length ≤ fuel → parseMembers fuel (text ++ rest) = some (members, rest)

theorem Reads.valueAfterWs {fuel : Nat} (reads : Reads fuel) {ws text after : List Char}
    {json : Json} {c : Char} (blank : Ws ws) (value : Value text json) (fits : text.length ≤ fuel)
    (blankAfter : Ws after) (ends : isNumberChar c = false) (rest : List Char) :
    parseValue fuel (Json.skipWs (ws ++ (text ++ (after ++ c :: rest)))) =
      some (json, after ++ c :: rest) := by
  rw [value.skipWs blank]
  exact reads.value value fits fun _ => follow_ws blankAfter ends rest

theorem Reads.elements_succ {fuel : Nat} (reads : Reads fuel) {text : List Char}
    {elements : List Json} (rest : List Char) (body : Elements text elements)
    (fits : text.length ≤ fuel + 1) :
    parseElements (fuel + 1) (text ++ rest) = some (elements, rest) := by
  cases body with
  | @last before text after json blankBefore value blankAfter =>
      simp only [List.length_append, List.length_cons, List.length_nil] at fits
      have read := reads.valueAfterWs blankBefore value (by omega) blankAfter
        (c := ']') rfl rest
      simp only [List.append_assoc, List.cons_append, List.nil_append, parseElements]
      rw [read, Option.bind_some]
      simp only [expect_other blankAfter (c := ',') (d := ']') rfl (by decide),
        expect_ws blankAfter (c := ']') rfl, Option.map_some]
  | @more before text after later json elements blankBefore value blankAfter body =>
      simp only [List.length_append, List.length_cons] at fits
      have read := reads.valueAfterWs blankBefore value (by omega) blankAfter
        (c := ',') rfl (later ++ rest)
      have readLater := reads.elements rest body (by omega)
      simp only [List.append_assoc, List.cons_append, parseElements]
      rw [read, Option.bind_some]
      simp only [expect_ws blankAfter (c := ',') rfl, readLater, Option.map_some]

theorem Reads.members_succ {fuel : Nat} (reads : Reads fuel) {text : List Char}
    {members : List (JString × Json)} (rest : List Char) (body : Members text members)
    (fits : text.length ≤ fuel + 1) :
    parseMembers (fuel + 1) (text ++ rest) = some (members, rest) := by
  cases body with
  | @last before name middle between text after key json blankBefore chars blankMiddle
      blankBetween value blankAfter =>
      simp only [List.length_append, List.length_cons, List.length_nil] at fits
      have read := reads.valueAfterWs blankBetween value (by omega) blankAfter
        (c := '}') rfl rest
      simp only [List.append_assoc, List.cons_append, List.nil_append, parseMembers]
      rw [expect_ws blankBefore (c := '"') rfl, Option.bind_some, scanString_chars chars,
        Option.bind_some]
      dsimp only
      rw [expect_ws blankMiddle (c := ':') rfl, Option.bind_some, read, Option.bind_some]
      simp only [expect_other blankAfter (c := ',') (d := '}') rfl (by decide),
        expect_ws blankAfter (c := '}') rfl, Option.map_some]
  | @more before name middle between text after later key json members blankBefore chars
      blankMiddle blankBetween value blankAfter body =>
      simp only [List.length_append, List.length_cons] at fits
      have read := reads.valueAfterWs blankBetween value (by omega) blankAfter
        (c := ',') rfl (later ++ rest)
      have readLater := reads.members rest body (by omega)
      simp only [List.append_assoc, List.cons_append, parseMembers]
      rw [expect_ws blankBefore (c := '"') rfl, Option.bind_some, scanString_chars chars,
        Option.bind_some]
      dsimp only
      rw [expect_ws blankMiddle (c := ':') rfl, Option.bind_some, read, Option.bind_some]
      simp only [expect_ws blankAfter (c := ',') rfl, readLater, Option.map_some]

theorem Reads.value_succ {fuel : Nat} (reads : Reads fuel) {text : List Char} {json : Json}
    {rest : List Char} (value : Value text json) (fits : text.length ≤ fuel + 1)
    (follow : json.isObject = false → Follow rest) :
    parseValue (fuel + 1) (text ++ rest) = some (json, rest) := by
  cases value with
  | nullLiteral => rfl
  | trueLiteral => rfl
  | falseLiteral => rfl
  | number chars value =>
      refine parseValue_number chars value fuel (follow ?_)
      exact numberValue_not_object value
  | string chars => exact parseValue_string chars fuel rest
  | emptyArray blank =>
      have closed := expect_ws blank (c := ']') rfl rest
      simp only [List.cons_append, List.append_assoc, List.nil_append, parseValue,
        Char.reduceEq, if_true, if_false]
      rw [closed]
  | emptyObject blank =>
      have closed := expect_ws blank (c := '}') rfl rest
      simp only [List.cons_append, List.append_assoc, List.nil_append, parseValue,
        Char.reduceEq, if_true, if_false]
      rw [closed]
  | array body =>
      obtain ⟨ws, c, tail, blank, rfl, visible, different⟩ := body.head
      have read := reads.elements rest body (Nat.le_of_succ_le_succ fits)
      have opened := expect_other blank visible different (tail ++ rest)
      simp only [List.cons_append, List.append_assoc] at read ⊢
      simp only [parseValue, Char.reduceEq, if_true, if_false]
      rw [opened]
      simp only [read, Option.map_some]
  | object body =>
      obtain ⟨ws, tail, blank, rfl⟩ := body.head
      have read := reads.members rest body (Nat.le_of_succ_le_succ fits)
      have opened := expect_other blank (c := '}') (d := '"') rfl (by decide) (tail ++ rest)
      simp only [List.cons_append, List.append_assoc] at read ⊢
      simp only [parseValue, Char.reduceEq, if_true, if_false]
      rw [opened]
      simp only [read, Option.map_some]

theorem reads (fuel : Nat) : Reads fuel := by
  induction fuel with
  | zero =>
      refine ⟨?_, ?_, ?_⟩
      · intro text json rest value fits _
        obtain ⟨c, tail, rfl, _⟩ := value.head
        cases fits
      · intro text elements rest body fits
        obtain ⟨ws, c, tail, _, rfl, _⟩ := body.head
        simp at fits
      · intro text members rest body fits
        obtain ⟨ws, tail, _, rfl⟩ := body.head
        simp at fits
  | succ fuel ih => exact ⟨ih.value_succ, ih.elements_succ, ih.members_succ⟩

/-! ## Documents -/

def utf8 (text : List Char) : Bytes := text.flatMap String.utf8EncodeChar

/-- The characters of the bytes, up to the first that are no character. -/
def decodeText : Nat → Bytes → List Char
  | 0, _ => []
  | fuel + 1, bytes =>
      match (bytes.take 4).toByteArray.utf8DecodeChar? 0 with
      | some c => c :: decodeText fuel (bytes.drop c.utf8Size)
      | none => []

/-- Reads the first value of a document; what follows it is not looked at. -/
def readTree (bytes : Bytes) : Option Json :=
  let text := skipWs (decodeText bytes.length bytes)
  (parseValue text.length text).map Prod.fst

theorem utf8_append (front back : List Char) : utf8 (front ++ back) = utf8 front ++ utf8 back :=
  List.flatMap_append

theorem decodeText_utf8 (text : List Char) (trailing : Bytes) {fuel : Nat}
    (enough : text.length ≤ fuel) :
    ∃ rest, decodeText fuel (utf8 text ++ trailing) = text ++ rest := by
  induction text generalizing fuel with
  | nil => exact ⟨_, rfl⟩
  | cons c text ih =>
      cases fuel with
      | zero => cases enough
      | succ fuel =>
          obtain ⟨rest, decoded⟩ := ih (Nat.le_of_succ_le_succ enough)
          have split : utf8 (c :: text) ++ trailing =
              String.utf8EncodeChar c ++ (utf8 text ++ trailing) := by
            rw [utf8, List.flatMap_cons, List.append_assoc]
            rfl
          have first : ((utf8 (c :: text) ++ trailing).take 4).toByteArray.utf8DecodeChar? 0 =
              some c := by
            have fits : (String.utf8EncodeChar c).length ≤ 4 := by
              rw [String.length_utf8EncodeChar]
              exact c.utf8Size_le_four
            rw [split, List.take_append, List.take_of_length_le fits, List.toByteArray_append]
            exact ByteArray.utf8DecodeChar?_utf8EncodeChar_append
          refine ⟨rest, ?_⟩
          rw [decodeText, first]
          dsimp only
          rw [split, List.drop_left' (String.length_utf8EncodeChar c), decoded, List.cons_append]

theorem length_le_utf8 (text : List Char) : text.length ≤ (utf8 text).length := by
  induction text with
  | nil => exact Nat.le_refl _
  | cons c text ih =>
      have encoded := String.length_utf8EncodeChar c
      have positive := c.utf8Size_pos
      rw [utf8, List.flatMap_cons, List.length_append, List.length_cons]
      change (utf8 text).length ≥ _ at ih
      change _ ≤ _ + (utf8 text).length
      omega

/-- A reader of documents that gives the tree of every object behind white space, whatever follows
it. -/
def ReadsObjects (reader : Bytes → Option Json) : Prop :=
  ∀ ws text json trailing, Ws ws → Value text json → json.isObject = true →
    reader (utf8 (ws ++ text) ++ trailing) = some json

theorem readTree_readsObjects : ReadsObjects readTree := by
  intro ws text json trailing blank value isObject
  have enough : (ws ++ text).length ≤ (utf8 (ws ++ text) ++ trailing).length := by
    have encoded := length_le_utf8 (ws ++ text)
    exact Nat.le_trans encoded (List.prefix_append _ trailing).length_le
  obtain ⟨rest, decoded⟩ := decodeText_utf8 (ws ++ text) trailing enough
  have skipped : skipWs (ws ++ text ++ rest) = text ++ rest := by
    rw [List.append_assoc]
    exact value.skipWs blank rest
  have parsed : parseValue (text ++ rest).length (text ++ rest) = some (json, rest) := by
    apply (reads _).value value
    · rw [List.length_append]
      exact Nat.le_add_right _ _
    · intro notObject
      rw [isObject] at notObject
      cases notObject
  rw [readTree, decoded]
  simp only [skipped, parsed, Option.map_some]

end Json

end Conclave.Lib
