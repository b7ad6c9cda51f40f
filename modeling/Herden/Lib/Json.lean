import Mathlib.Tactic.IntervalCases
import Herden.Lib.IpAddr
import Herden.Lib.Text

/-!
# `Herden.Lib.Json`: values of JSON, written and read

`stringify` writes a value without white space, as `JSON.stringify` does, and `parse` reads the
grammar of JSON, as `JSON.parse` does. A number is a decimal one, a mantissa and a power of ten. It
is exact here, where JavaScript rounds it. A string is a Lean string, so that an escape for half of a
surrogate pair is refused. Of members with one key the last stays, in the place of the first.

`Reads` says that a value is read as it was written, whatever follows it. The lemmas give it for
strings, natural numbers and objects with distinct keys.
-/

namespace Herden.Lib

/-- `mantissa * 10 ^ exponent`. -/
structure Number where
  mantissa : Int
  exponent : Int

inductive Json where
  | null
  | bool (value : Bool)
  | num (value : Number)
  | str (value : String)
  | arr (elements : List Json)
  | obj (members : List (String × Json))

namespace Json

/-- A natural number. -/
def nat (n : Nat) : Json := .num ⟨n, 0⟩

/-- `Number.isInteger`, and the integer. -/
def toInt : Json → Option Int
  | .num ⟨mantissa, exponent⟩ =>
      if 0 ≤ exponent then some (mantissa * 10 ^ exponent.toNat)
      else if mantissa % 10 ^ (-exponent).toNat = 0 then some (mantissa / 10 ^ (-exponent).toNat)
      else none
  | _ => none

/-- A member of an object, `none` for `undefined`. -/
def get (value : Json) (key : String) : Option Json :=
  match value with
  | .obj members => (members.find? (·.1 = key)).map (·.2)
  | _ => none

/-- A member that is a string. -/
def getStr (value : Json) (key : String) : Option String :=
  match value.get key with
  | some (.str text) => some text
  | _ => none

@[simp] theorem toInt_nat (n : Nat) : (nat n).toInt = some (n : Int) := by
  simp [nat, toInt]

/-! ### Writing -/

def decimal (n : Nat) : Text := Nat.toDigits 10 n

def integerText : Int → Text
  | .ofNat n => decimal n
  | .negSucc n => '-' :: decimal (n + 1)

def numberText (number : Number) : Text :=
  if number.exponent = 0 then integerText number.mantissa
  else integerText number.mantissa ++ 'e' :: integerText number.exponent

def hexDigit (n : Nat) : Char := n.digitChar

/-- A character of a string. -/
def escape (c : Char) : Text :=
  if c = '"' then ['\\', '"']
  else if c = '\\' then ['\\', '\\']
  else if c = '\x08' then ['\\', 'b']
  else if c = '\t' then ['\\', 't']
  else if c = '\n' then ['\\', 'n']
  else if c = '\x0c' then ['\\', 'f']
  else if c = '\r' then ['\\', 'r']
  else if c.toNat < 0x20 then
    ['\\', 'u', '0', '0', hexDigit (c.toNat / 16), hexDigit (c.toNat % 16)]
  else [c]

def quote (text : String) : Text := '"' :: (text.toList.flatMap escape ++ ['"'])

mutual

def stringify : Json → Text
  | .null => ['n', 'u', 'l', 'l']
  | .bool true => ['t', 'r', 'u', 'e']
  | .bool false => ['f', 'a', 'l', 's', 'e']
  | .num value => numberText value
  | .str value => quote value
  | .arr [] => ['[', ']']
  | .arr (element :: rest) => '[' :: (stringify element ++ elementsText rest)
  | .obj [] => ['\x7b', '\x7d']
  | .obj ((key, value) :: rest) =>
      '\x7b' :: (quote key ++ ':' :: (stringify value ++ membersText rest))

/-- The elements after the first. -/
def elementsText : List Json → Text
  | [] => [']']
  | element :: rest => ',' :: (stringify element ++ elementsText rest)

/-- The members after the first. -/
def membersText : List (String × Json) → Text
  | [] => ['\x7d']
  | (key, value) :: rest => ',' :: (quote key ++ ':' :: (stringify value ++ membersText rest))

end

/-! ### Reading -/

def isSpace (c : Char) : Bool := c = ' ' || c = '\t' || c = '\n' || c = '\r'

def skipSpace (text : Text) : Text := text.dropWhile isSpace

def hexValue (c : Char) : Option Nat := IpAddr.toDigit 16 c

/-- The code unit of four hexadecimal digits. -/
def codeUnit (a b c d : Char) : Option Nat := do
  let a ← hexValue a
  let b ← hexValue b
  let c ← hexValue c
  let d ← hexValue d
  some (((a * 16 + b) * 16 + c) * 16 + d)

/-- What a backslash and a character stand for. -/
def unescape (c : Char) : Option Char :=
  if c = '"' then some '"'
  else if c = '\\' then some '\\'
  else if c = '/' then some '/'
  else if c = 'b' then some '\x08'
  else if c = 't' then some '\t'
  else if c = 'n' then some '\n'
  else if c = 'f' then some '\x0c'
  else if c = 'r' then some '\r'
  else none

/-- The code points and escaped code units of a string, behind its first quotation mark. -/
def parseUnits : Text → Option (List Nat × Text)
  | [] => none
  | '"' :: rest => some ([], rest)
  | '\\' :: 'u' :: a :: b :: c :: d :: rest => do
      let unit ← codeUnit a b c d
      let (units, rest) ← parseUnits rest
      some (unit :: units, rest)
  | '\\' :: c :: rest => do
      let c ← unescape c
      let (units, rest) ← parseUnits rest
      some (c.toNat :: units, rest)
  | c :: rest =>
      if c = '\\' ∨ c.toNat < 0x20 then none
      else do
        let (units, rest) ← parseUnits rest
        some (c.toNat :: units, rest)

def isHighSurrogate (unit : Nat) : Bool := 0xd800 ≤ unit && unit < 0xdc00

def isLowSurrogate (unit : Nat) : Bool := 0xdc00 ≤ unit && unit < 0xe000

/-- Surrogates must come in pairs. -/
def decodeUnits : List Nat → Option Text
  | [] => some []
  | high :: low :: rest =>
      if isHighSurrogate high then
        if isLowSurrogate low then
          (decodeUnits rest).map
            (Char.ofNat (0x10000 + (high - 0xd800) * 0x400 + (low - 0xdc00)) :: ·)
        else none
      else if isLowSurrogate high then none
      else (decodeUnits (low :: rest)).map (Char.ofNat high :: ·)
  | [unit] => if isHighSurrogate unit || isLowSurrogate unit then none else some [Char.ofNat unit]

def parseString (text : Text) : Option (String × Text) := do
  let (units, rest) ← parseUnits text
  let chars ← decodeUnits units
  some (String.ofList chars, rest)

def digitsValue (digits : Text) : Nat := IpAddr.digitsValue 10 digits 0

/-- At least one digit. -/
def parseDigits (text : Text) : Option (Text × Text) :=
  let digits := text.takeWhile Char.isDigit
  if digits.isEmpty then none else some (digits, text.dropWhile Char.isDigit)

def parseSign : Text → Bool × Text
  | '-' :: rest => (true, rest)
  | text => (false, text)

def signed (negative : Bool) (magnitude : Nat) : Int := if negative then -magnitude else magnitude

def parseFraction : Text → Option (Text × Text)
  | '.' :: rest => parseDigits rest
  | text => some ([], text)

def parseExponent : Text → Option (Int × Text)
  | 'e' :: rest => exponent rest
  | 'E' :: rest => exponent rest
  | text => some (0, text)
where
  exponent (text : Text) : Option (Int × Text) := do
    let (negative, text) := match text with
      | '+' :: rest => (false, rest)
      | text => parseSign text
    let (digits, rest) ← parseDigits text
    some (signed negative (digitsValue digits), rest)

def parseNumber (text : Text) : Option (Number × Text) := do
  let (negative, text) := parseSign text
  let (digits, rest) ← parseDigits text
  if digits.head? = some '0' ∧ 1 < digits.length then none
  else
    let (fraction, rest) ← parseFraction rest
    let (exponent, rest) ← parseExponent rest
    let magnitude := digitsValue (digits ++ fraction)
    some (⟨signed negative magnitude, exponent - fraction.length⟩, rest)

/-- Give a key its value. -/
def setMember (members : List (String × Json)) (key : String) (value : Json) :
    List (String × Json) :=
  if members.any (·.1 = key) then
    members.map fun member => if member.1 = key then (key, value) else member
  else members ++ [(key, value)]

def ofMembers (members : List (String × Json)) : List (String × Json) :=
  members.foldl (fun members member => setMember members member.1 member.2) []

mutual

def parseValue : Nat → Text → Option (Json × Text)
  | 0, _ => none
  | fuel + 1, text =>
      match skipSpace text with
      | 'n' :: 'u' :: 'l' :: 'l' :: rest => some (.null, rest)
      | 't' :: 'r' :: 'u' :: 'e' :: rest => some (.bool true, rest)
      | 'f' :: 'a' :: 'l' :: 's' :: 'e' :: rest => some (.bool false, rest)
      | '"' :: rest => (parseString rest).map fun found => (.str found.1, found.2)
      | '[' :: rest =>
          match skipSpace rest with
          | ']' :: rest => some (.arr [], rest)
          | rest => (parseElements fuel rest).map fun found => (.arr found.1, found.2)
      | '\x7b' :: rest =>
          match skipSpace rest with
          | '\x7d' :: rest => some (.obj [], rest)
          | rest => (parseMembers fuel rest).map fun found => (.obj (ofMembers found.1), found.2)
      | text => (parseNumber text).map fun found => (.num found.1, found.2)

/-- One element or more, and the end of the array. -/
def parseElements : Nat → Text → Option (List Json × Text)
  | 0, _ => none
  | fuel + 1, text => do
      let (element, rest) ← parseValue fuel text
      match skipSpace rest with
      | ',' :: rest => (parseElements fuel rest).map fun found => (element :: found.1, found.2)
      | ']' :: rest => some ([element], rest)
      | _ => none

/-- One member or more, and the end of the object. -/
def parseMembers : Nat → Text → Option (List (String × Json) × Text)
  | 0, _ => none
  | fuel + 1, text =>
      match skipSpace text with
      | '"' :: rest => do
          let (key, rest) ← parseString rest
          match skipSpace rest with
          | ':' :: rest => do
              let (value, rest) ← parseValue fuel rest
              match skipSpace rest with
              | ',' :: rest =>
                  (parseMembers fuel rest).map fun found => ((key, value) :: found.1, found.2)
              | '\x7d' :: rest => some ([(key, value)], rest)
              | _ => none
          | _ => none
      | _ => none

end

/-- A text that is one value and nothing else. The nesting is never deeper than the text is long. -/
def parse (text : Text) : Option Json := do
  let (value, rest) ← parseValue text.length text
  if (skipSpace rest).isEmpty then some value else none

/-! ### Strings -/

theorem hexValue_hexDigit : ∀ d < 16, hexValue (hexDigit d) = some d := by
  decide

theorem parseUnits_escape (c : Char) (rest : Text) :
    parseUnits (escape c ++ rest) = (parseUnits rest).map fun found => (c.toNat :: found.1, found.2)
    := by
  have hbind : ∀ n : Nat, (do
        let (units, rest) ← parseUnits rest
        some (n :: units, rest)) = (parseUnits rest).map fun found => (n :: found.1, found.2) := by
    intro n
    cases parseUnits rest <;> rfl
  unfold escape
  split
  · subst_vars
    exact hbind _
  split
  · subst_vars
    exact hbind _
  split
  · subst_vars
    exact hbind _
  split
  · subst_vars
    exact hbind _
  split
  · subst_vars
    exact hbind _
  split
  · subst_vars
    exact hbind _
  split
  · subst_vars
    exact hbind _
  split
  · rename_i hcontrol
    have hhigh := hexValue_hexDigit (c.toNat / 16) (by omega)
    have hlow := hexValue_hexDigit (c.toNat % 16) (by omega)
    have hunit : codeUnit '0' '0' (hexDigit (c.toNat / 16)) (hexDigit (c.toNat % 16))
        = some c.toNat := by
      unfold codeUnit
      rw [hhigh, hlow]
      show some (((0 * 16 + 0) * 16 + c.toNat / 16) * 16 + c.toNat % 16) = _
      congr 1
      omega
    rw [← hbind]
    show (do
      let unit ← codeUnit '0' '0' (hexDigit (c.toNat / 16)) (hexDigit (c.toNat % 16))
      let (units, rest) ← parseUnits rest
      some (unit :: units, rest)) = _
    rw [hunit]
    rfl
  · rename_i hquote hslash _ _ _ _ _ hcontrol
    rw [← hbind, List.singleton_append, parseUnits.eq_def]
    split
    · contradiction
    · rename_i heq
      cases heq
      exact absurd rfl hquote
    · rename_i heq
      cases heq
      exact absurd rfl hslash
    · rename_i heq
      cases heq
      exact absurd rfl hslash
    · rename_i heq
      cases heq
      rw [if_neg (by rintro (h | h) <;> contradiction)]

theorem parseUnits_flatMap_escape (text rest : Text) :
    parseUnits (text.flatMap escape ++ '"' :: rest) = some (text.map Char.toNat, rest) := by
  induction text with
  | nil => rfl
  | cons c text ih =>
    rw [List.flatMap_cons, List.append_assoc, parseUnits_escape, ih]
    rfl

theorem not_surrogate (c : Char) :
    isHighSurrogate c.toNat = false ∧ isLowSurrogate c.toNat = false := by
  have hvalid : c.toNat < 0xd800 ∨ 0xdfff < c.toNat ∧ c.toNat < 0x110000 := c.valid
  simp only [isHighSurrogate, isLowSurrogate, Bool.and_eq_false_iff, decide_eq_false_iff_not]
  omega

theorem decodeUnits_map_toNat (text : Text) : decodeUnits (text.map Char.toNat) = some text := by
  induction text with
  | nil => rfl
  | cons c text ih =>
    obtain ⟨hhigh, hlow⟩ := not_surrogate c
    cases text with
    | nil =>
      show (if _ then _ else _) = _
      rw [hhigh, hlow, Char.ofNat_toNat]
      rfl
    | cons d text =>
      rw [List.map_cons, List.map_cons, decodeUnits, hhigh, hlow]
      rw [List.map_cons] at ih
      rw [ih, Char.ofNat_toNat]
      rfl

theorem parseString_quote (text : String) (rest : Text) :
    parseString (text.toList.flatMap escape ++ '"' :: rest) = some (text, rest) := by
  unfold parseString
  rw [parseUnits_flatMap_escape, Option.bind_eq_bind, Option.bind_some]
  show (decodeUnits (text.toList.map Char.toNat)).bind _ = _
  rw [decodeUnits_map_toNat, Option.bind_some, String.ofList_toList]

/-! ### Numbers -/

/-- What may come behind a value. -/
def Follows (rest : Text) : Prop :=
  rest = [] ∨ ∃ more, rest = ',' :: more ∨ rest = ']' :: more ∨ rest = '\x7d' :: more

theorem isDigit_of_mem_decimal (n : Nat) : ∀ c ∈ decimal n, Char.isDigit c = true :=
  IpAddr.forall_mem_toDigits (by omega) (by decide) n

theorem digitsValue_decimal (n : Nat) : digitsValue (decimal n) = n :=
  IpAddr.digitsValue_toDigits (by omega) (by decide) n

theorem decimal_ne_nil (n : Nat) : decimal n ≠ [] :=
  List.ne_nil_of_length_pos Nat.length_toDigits_pos

variable {n : Nat} {rest : Text}

/-- Only the number zero begins with a zero. -/
theorem head?_decimal_ne (h : 0 < n) : (decimal n).head? ≠ some '0' := by
  induction n using Nat.strongRecOn with
  | ind n ih =>
    have hdigit : ∀ d < 10, 0 < d → d.digitChar ≠ '0' := by decide
    unfold decimal
    rw [Nat.toDigits_eq_if (by omega)]
    split
    · rename_i hlt
      intro hhead
      exact hdigit n hlt h (Option.some.inj hhead)
    · rename_i hle
      show (decimal (n / 10) ++ [(n % 10).digitChar]).head? ≠ some '0'
      rw [List.head?_append_of_ne_nil _ (decimal_ne_nil (n / 10))]
      exact ih (n / 10) (by omega) (by omega)

theorem length_decimal_of_head? (h : (decimal n).head? = some '0') : (decimal n).length = 1 := by
  cases n with
  | zero => rfl
  | succ n => exact absurd h (head?_decimal_ne (by omega))

theorem parseDigits_decimal (n : Nat) (h : Follows rest) :
    parseDigits (decimal n ++ rest) = some (decimal n, rest) := by
  have htake : rest.takeWhile Char.isDigit = [] := by
    rcases h with rfl | ⟨more, rfl | rfl | rfl⟩ <;> rfl
  have hdrop : rest.dropWhile Char.isDigit = rest := by
    rcases h with rfl | ⟨more, rfl | rfl | rfl⟩ <;> rfl
  unfold parseDigits
  rw [List.takeWhile_append_of_pos (isDigit_of_mem_decimal n), htake, List.append_nil,
    List.dropWhile_append_of_pos (isDigit_of_mem_decimal n), hdrop]
  rw [if_neg (by simpa using decimal_ne_nil n)]

theorem parseSign_decimal (n : Nat) (rest : Text) :
    parseSign (decimal n ++ rest) = (false, decimal n ++ rest) := by
  unfold parseSign
  split
  · rename_i more heq
    cases hdecimal : decimal n with
    | nil => exact absurd hdecimal (decimal_ne_nil n)
    | cons c digits =>
      rw [hdecimal, List.cons_append] at heq
      have hdigit := isDigit_of_mem_decimal n c (by rw [hdecimal]; exact List.mem_cons_self)
      rw [List.cons.inj heq |>.1] at hdigit
      cases hdigit
  · rfl

theorem parseNumber_decimal (n : Nat) (h : Follows rest) :
    parseNumber (decimal n ++ rest) = some (⟨n, 0⟩, rest) := by
  have hfraction : parseFraction rest = some ([], rest) := by
    rcases h with rfl | ⟨more, rfl | rfl | rfl⟩ <;> rfl
  have hexponent : parseExponent rest = some (0, rest) := by
    rcases h with rfl | ⟨more, rfl | rfl | rfl⟩ <;> rfl
  unfold parseNumber
  rw [parseSign_decimal]
  show (parseDigits (decimal n ++ rest)).bind _ = _
  rw [parseDigits_decimal n h, Option.bind_some]
  dsimp only
  rw [if_neg (fun hzero => by have := length_decimal_of_head? hzero.1; omega), hfraction]
  show (parseExponent rest).bind _ = _
  rw [hexponent, Option.bind_some, List.append_nil, digitsValue_decimal]
  rfl

/-! ### What is written is read -/

/-- The value is read as it is written, with steps enough for its text. -/
def Reads (value : Json) : Prop :=
  ∀ fuel rest, (stringify value).length ≤ fuel → Follows rest →
    parseValue fuel (stringify value ++ rest) = some (value, rest)

variable {value : Json} {key : String} {members : List (String × Json)}

theorem parse_stringify (h : Reads value) : parse (stringify value) = some value := by
  have hvalue := h (stringify value).length [] (Nat.le_refl _) (.inl rfl)
  rw [List.append_nil] at hvalue
  unfold parse
  rw [hvalue]
  rfl

theorem reads_str (text : String) : Reads (.str text) := by
  intro fuel rest hfuel _
  have htext : stringify (.str text) = '"' :: (text.toList.flatMap escape ++ ['"']) := by
    rw [stringify, quote]
  rw [htext] at hfuel ⊢
  cases fuel with
  | zero => simp at hfuel
  | succ fuel =>
    show (parseString (text.toList.flatMap escape ++ ['"'] ++ rest)).map _ = _
    rw [List.append_assoc, List.singleton_append, parseString_quote]
    rfl

theorem parseValue_digit (fuel : Nat) {c : Char} (rest : Text) (h : c.isDigit = true) :
    parseValue (fuel + 1) (c :: rest)
      = (parseNumber (c :: rest)).map fun found => (.num found.1, found.2) := by
  -- With a digit in its place, the tests of the reader are evaluated.
  have hrange : 48 ≤ c.toNat ∧ c.toNat ≤ 57 := by
    simpa [Char.isDigit, UInt32.le_iff_toNat_le] using h
  rw [← Char.ofNat_toNat c]
  obtain ⟨hlow, hhigh⟩ := hrange
  generalize c.toNat = n at hlow hhigh ⊢
  interval_cases n <;> rfl

theorem reads_nat (n : Nat) : Reads (nat n) := by
  intro fuel rest hfuel hrest
  have htext : stringify (nat n) = decimal n := by
    rw [nat, stringify, numberText, if_pos rfl]
    rfl
  rw [htext] at hfuel ⊢
  cases hdecimal : decimal n with
  | nil => exact absurd hdecimal (decimal_ne_nil n)
  | cons c digits =>
    have hdigit := isDigit_of_mem_decimal n c (by rw [hdecimal]; exact List.mem_cons_self)
    cases fuel with
    | zero => simp [hdecimal] at hfuel
    | succ fuel =>
      rw [List.cons_append, parseValue_digit fuel _ hdigit, ← List.cons_append, ← hdecimal,
        parseNumber_decimal n hrest]
      rfl

/-! ### Objects -/

theorem setMember_of_notMem (value : Json) (h : key ∉ members.map Prod.fst) :
    setMember members key value = members ++ [(key, value)] := by
  unfold setMember
  rw [if_neg]
  intro hany
  obtain ⟨member, hmem, hkey⟩ := List.any_eq_true.mp hany
  exact h (List.mem_map.mpr ⟨member, hmem, of_decide_eq_true hkey⟩)

theorem ofMembers_of_nodup (h : (members.map Prod.fst).Nodup) : ofMembers members = members := by
  have hfold : ∀ before : List (String × Json), ((before ++ members).map Prod.fst).Nodup →
      members.foldl (fun members member => setMember members member.1 member.2) before
        = before ++ members := by
    induction members with
    | nil => intro before _; rw [List.foldl_nil, List.append_nil]
    | cons member members ih =>
      intro before hnodup
      have hnew : member.1 ∉ before.map Prod.fst := by
        rw [List.map_append, List.map_cons] at hnodup
        exact fun hmem => (List.nodup_append.mp hnodup).2.2 _ hmem _ List.mem_cons_self rfl
      rw [List.foldl_cons, setMember_of_notMem _ hnew,
        ih (List.nodup_cons.mp h).2 _ (by rw [List.append_assoc]; exact hnodup),
        List.append_assoc]
      rfl
  exact hfold [] h

theorem follows_membersText (members : List (String × Json)) (rest : Text) :
    Follows (membersText members ++ rest) := by
  cases members with
  | nil =>
    rw [membersText]
    exact .inr ⟨rest, .inr (.inr rfl)⟩
  | cons member members =>
    obtain ⟨key, value⟩ := member
    rw [membersText]
    exact .inr ⟨_, .inl rfl⟩

theorem length_quote_pos (text : String) : 0 < (quote text).length := by
  simp [quote]

/-- A member is read, and what follows decides how it goes on. -/
theorem parseMembers_succ {tail : Text} (hvalue : Reads value) {fuel : Nat}
    (hfuel : (stringify value).length ≤ fuel) (htail : Follows tail) :
    parseMembers (fuel + 1) (quote key ++ ':' :: (stringify value ++ tail))
      = match skipSpace tail with
        | ',' :: rest => (parseMembers fuel rest).map fun found =>
            ((key, value) :: found.1, found.2)
        | '\x7d' :: rest => some ([(key, value)], rest)
        | _ => none := by
  rw [quote, parseMembers]
  show (parseString (key.toList.flatMap escape ++ ['"'] ++ ':' :: (stringify value ++ tail))).bind _
    = _
  rw [List.append_assoc, List.singleton_append, parseString_quote, Option.bind_some]
  show (parseValue fuel (stringify value ++ tail)).bind _ = _
  rw [hvalue fuel tail hfuel htail, Option.bind_some]

/-- The members of an object are read as they are written. -/
theorem parseMembers_text (hreads : ∀ member ∈ members, Reads member.2) (hvalue : Reads value)
    (fuel : Nat) (rest : Text)
    (hfuel : (quote key ++ ':' :: (stringify value ++ membersText members)).length ≤ fuel) :
    parseMembers fuel (quote key ++ ':' :: (stringify value ++ (membersText members ++ rest)))
      = some ((key, value) :: members, rest) := by
  induction members generalizing key value fuel with
  | nil =>
    have hlength := length_quote_pos key
    simp only [List.length_append, List.length_cons] at hfuel
    obtain ⟨fuel, rfl⟩ := Nat.exists_eq_succ_of_ne_zero (show fuel ≠ 0 by omega)
    rw [parseMembers_succ hvalue (by omega) (follows_membersText [] rest), membersText]
    rfl
  | cons member members ih =>
    obtain ⟨nextKey, nextValue⟩ := member
    have hlength := length_quote_pos key
    have htext : membersText ((nextKey, nextValue) :: members)
        = ',' :: (quote nextKey ++ ':' :: (stringify nextValue ++ membersText members)) := by
      rw [membersText]
    have hcomma : membersText ((nextKey, nextValue) :: members) ++ rest
        = ',' ::
            (quote nextKey ++ ':' :: (stringify nextValue ++ (membersText members ++ rest))) := by
      rw [htext, List.cons_append, List.append_assoc, List.cons_append, List.append_assoc]
    rw [htext] at hfuel
    simp only [List.length_append, List.length_cons] at hfuel
    obtain ⟨fuel, rfl⟩ := Nat.exists_eq_succ_of_ne_zero (show fuel ≠ 0 by omega)
    rw [parseMembers_succ hvalue (by omega) (follows_membersText _ rest), hcomma]
    show (parseMembers fuel _).map _ = _
    rw [ih (fun member hmem => hreads member (List.mem_cons_of_mem _ hmem))
      (hreads _ List.mem_cons_self) fuel
      (by simp only [List.length_append, List.length_cons]; omega)]
    rfl

theorem reads_obj (hnodup : (members.map Prod.fst).Nodup)
    (hreads : ∀ member ∈ members, Reads member.2) : Reads (.obj members) := by
  intro fuel rest hfuel _
  cases members with
  | nil =>
    rw [stringify] at hfuel ⊢
    obtain ⟨fuel, rfl⟩ := Nat.exists_eq_succ_of_ne_zero (show fuel ≠ 0 by rintro rfl; cases hfuel)
    rfl
  | cons member members =>
    obtain ⟨key, value⟩ := member
    have htext : stringify (.obj ((key, value) :: members))
        = '\x7b' :: (quote key ++ ':' :: (stringify value ++ membersText members)) := by
      rw [stringify]
    rw [htext] at hfuel ⊢
    rw [List.length_cons] at hfuel
    obtain ⟨fuel, rfl⟩ := Nat.exists_eq_succ_of_ne_zero (show fuel ≠ 0 by omega)
    have hvalue : Reads value := hreads _ List.mem_cons_self
    have hmembers : parseMembers fuel
        (quote key ++ ':' :: (stringify value ++ (membersText members ++ rest)))
        = some ((key, value) :: members, rest) :=
      parseMembers_text (fun member hmem => hreads member (List.mem_cons_of_mem _ hmem)) hvalue fuel
        rest (by omega)
    show (parseMembers fuel ((quote key ++ ':' :: (stringify value ++ membersText members))
      ++ rest)).map (fun found => (obj (ofMembers found.1), found.2)) = _
    rw [List.append_assoc, List.cons_append, List.append_assoc, hmembers, Option.map_some,
      ofMembers_of_nodup hnodup]

end Json

end Herden.Lib
