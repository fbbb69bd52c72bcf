import Mathlib
import Scriptorium.Json.Reader

/-!
# Written documents

Reading a document that has been written gives it back: `read?_write`. Texts come first, then numerals, then trees.
-/
namespace Scriptorium.Json

open Decimal (Exponent Numeral)

private theorem ofQuad?_hexQuad {n : Nat} (small : n < 32) :
    ∃ a b c d, hexQuad n = [a, b, c, d] ∧ ofQuad? a b c d = some n := by
  refine ⟨_, _, _, _, rfl, ?_⟩
  interval_cases n <;> rfl

/-- A character is written as itself, as a mark after a backslash, or as four hexadecimal digits. -/
theorem escape_cases (c : Char) :
    (∃ mark, escape c = ['\\', mark] ∧ mark ≠ 'u' ∧ ofMark? mark = some c) ∨
      (∃ n₁ n₂ n₃ n₄, escape c = ['\\', 'u', n₁, n₂, n₃, n₄] ∧ ofQuad? n₁ n₂ n₃ n₄ = some c.toNat ∧ c.toNat < 32) ∨
      (escape c = [c] ∧ c ≠ '"' ∧ c ≠ '\\' ∧ ¬ c.toNat < 32) := by
  unfold escape
  split
  · exact .inl ⟨_, rfl, by decide, rfl⟩
  · exact .inl ⟨_, rfl, by decide, rfl⟩
  · exact .inl ⟨_, rfl, by decide, rfl⟩
  · exact .inl ⟨_, rfl, by decide, rfl⟩
  · exact .inl ⟨_, rfl, by decide, rfl⟩
  · exact .inl ⟨_, rfl, by decide, rfl⟩
  · exact .inl ⟨_, rfl, by decide, rfl⟩
  · rename_i quote slash _ _ _ _ _
    by_cases control : c.toNat < 0x20
    · obtain ⟨n₁, n₂, n₃, n₄, written, same⟩ := ofQuad?_hexQuad control
      rw [if_pos control, written]
      exact .inr (.inl ⟨n₁, n₂, n₃, n₄, rfl, same, control⟩)
    · rw [if_neg control]
      exact .inr (.inr ⟨rfl, quote, slash, control⟩)

private theorem raw?_escape (done rest : List Char) (c : Char) :
    raw? done (escape c ++ rest) = raw? ((escape c).reverse ++ done) rest := by
  rcases escape_cases c with ⟨mark, written, other, known⟩ | ⟨n₁, n₂, n₃, n₄, written, known, -⟩ | ⟨written, quote, slash, plain⟩
  · rw [written, List.cons_append, List.cons_append, List.nil_append, raw?]
    · rw [known]
      rfl
    · intro _ _ _ _ _ same
      exact absurd same other
  · simp only [written, List.cons_append, List.nil_append, raw?, known]
    rfl
  · rw [written, List.singleton_append, raw?, if_neg plain]
    · rfl
    · exact quote
    · intro _ _ _ _ _ same
      exact absurd same slash
    · intro _ _ same
      exact absurd same slash

/-- The text up to its quote is found again. -/
theorem raw?_escapeAll (s : String) (rest : List Char) :
    raw? [] (escapeAll s ++ '"' :: rest) = some (escapeAll s, rest) := by
  have all : ∀ (cs done : List Char), raw? done (cs.flatMap escape ++ '"' :: rest) =
      some (done.reverse ++ cs.flatMap escape, rest) := by
    intro cs
    induction cs with
    | nil => simp [raw?]
    | cons c cs ih =>
      intro done
      rw [List.flatMap_cons, List.append_assoc, raw?_escape, ih]
      simp
  exact all s.toList []

private theorem unescape?_escape (done rest : List Char) (c : Char) :
    unescape? done (escape c ++ rest) = unescape? (c :: done) rest := by
  rcases escape_cases c with ⟨mark, written, other, known⟩ | ⟨n₁, n₂, n₃, n₄, written, known, control⟩ | ⟨written, -, slash, -⟩
  · rw [written, List.cons_append, List.cons_append, List.nil_append, unescape?]
    · rw [known]
    · intro _ _ _ _ _ same
      exact absurd same other
  · have second : isSecondHalf c.toNat = false := by simp only [isSecondHalf, Bool.and_eq_false_iff, decide_eq_false_iff_not]; omega
    have first : isFirstHalf c.toNat = false := by simp only [isFirstHalf, Bool.and_eq_false_iff, decide_eq_false_iff_not]; omega
    simp [written, unescape?, known, second, first]
  · rw [written, List.singleton_append, unescape?]
    · intro _ _ _ _ _ same
      exact absurd same slash
    · intro _ _ same
      exact absurd same slash

/-- The text that is written stands for the text. -/
@[simp] theorem unescape?_escapeAll (s : String) : unescape? [] (escapeAll s) = some s := by
  have all : ∀ (cs done : List Char), unescape? done (cs.flatMap escape) = some (String.ofList (done.reverse ++ cs)) := by
    intro cs
    induction cs with
    | nil => simp [unescape?]
    | cons c cs ih =>
      intro done
      rw [List.flatMap_cons, unescape?_escape, ih]
      simp
  rw [escapeAll, all]
  simp

/-- What may follow a document: nothing, a comma, or a bracket that closes. -/
def Follows (rest : List Char) : Prop := ∀ c tail, rest = c :: tail → c = ',' ∨ c = ']' ∨ c = '\x7d'

private theorem follows_nil : Follows [] := nofun

private theorem follows_cons {c : Char} {tail : List Char} (mark : c = ',' ∨ c = ']' ∨ c = '\x7d') : Follows (c :: tail) := by
  intro first rest same
  cases same
  exact mark

/-- A numeral as JSON has it: digits where digits belong, no needless zero in front, and an exponent only with digits. -/
structure Written (n : Numeral) : Prop where
  digits : ∀ c ∈ n.whole, c.isDigit = true
  whole : Numeral.isWhole n.whole = true
  fraction : ∀ c ∈ n.fraction, c.isDigit = true
  exponent : ∀ e, n.exponent = some e → e.digits ≠ [] ∧ ∀ c ∈ e.digits, c.isDigit = true

/-- A text that goes on with no digit. -/
def NoDigit (rest : List Char) : Prop := ∀ c tail, rest = c :: tail → c.isDigit = false

theorem noDigit_cons {c : Char} {tail : List Char} (none : c.isDigit = false) : NoDigit (c :: tail) := by
  intro first rest same
  cases same
  exact none

theorem Follows.noDigit {rest : List Char} (follows : Follows rest) : NoDigit rest := by
  intro c tail same
  rcases follows c tail same with rfl | rfl | rfl <;> decide

theorem takeWhile_digits {digits rest : List Char} (all : ∀ c ∈ digits, c.isDigit = true) (stops : NoDigit rest) :
    (digits ++ rest).takeWhile Char.isDigit = digits := by
  rw [List.takeWhile_append_of_pos all]
  cases rest with
  | nil => simp
  | cons c tail => simp [stops c tail rfl]

theorem dropWhile_digits {digits rest : List Char} (all : ∀ c ∈ digits, c.isDigit = true) (stops : NoDigit rest) :
    (digits ++ rest).dropWhile Char.isDigit = rest := by
  rw [List.dropWhile_append_of_pos all]
  cases rest with
  | nil => rfl
  | cons c tail => simp [stops c tail rfl]

private theorem afterMark_chars {e : Exponent} (filled : e.digits ≠ []) (all : ∀ c ∈ e.digits, c.isDigit = true)
    {rest : List Char} (follows : Follows rest) :
    ∃ marked, e.chars ++ rest = 'e' :: marked ∧ Exponent.afterMark marked = some (e, rest) := by
  obtain ⟨sign, digits⟩ := e
  have taken := takeWhile_digits all follows.noDigit
  have dropped := dropWhile_digits all follows.noDigit
  simp only at filled all taken dropped
  cases sign with
  | none =>
    refine ⟨digits ++ rest, rfl, ?_⟩
    cases digits with
    | nil => exact absurd rfl filled
    | cons first others =>
      have digit := all first List.mem_cons_self
      have plus : first ≠ '+' := by rintro rfl; revert digit; decide
      have minus : first ≠ '-' := by rintro rfl; revert digit; decide
      simp only [List.cons_append] at taken dropped
      simp [Exponent.afterMark, plus, minus, taken, dropped]
  | some sign =>
    cases sign with
    | plus => exact ⟨'+' :: (digits ++ rest), rfl, by simp [Exponent.afterMark, taken, dropped, filled]⟩
    | minus => exact ⟨'-' :: (digits ++ rest), rfl, by simp [Exponent.afterMark, taken, dropped, filled]⟩

private theorem readExponent_chars {n : Numeral} (written : Written n) {rest : List Char} (follows : Follows rest) :
    Numeral.readExponent (n.exponent.elim [] Exponent.chars ++ rest) = some (n.exponent, rest) := by
  cases power : n.exponent with
  | some e =>
    obtain ⟨filled, all⟩ := written.exponent e power
    obtain ⟨marked, same, read⟩ := afterMark_chars filled all follows
    simp [same, Numeral.readExponent, read]
  | none =>
    simp only [Option.elim_none, List.nil_append]
    cases rest with
    | nil => rfl
    | cons c tail => rcases follows c tail rfl with rfl | rfl | rfl <;> rfl

/-- After its fraction a numeral goes on with no digit and no point. -/
theorem exponent_begins (n : Numeral) {rest : List Char} (follows : Follows rest) :
    NoDigit (n.exponent.elim [] Exponent.chars ++ rest) ∧
      ∀ tail, n.exponent.elim [] Exponent.chars ++ rest ≠ '.' :: tail := by
  cases n.exponent with
  | none =>
    refine ⟨follows.noDigit, fun tail same => ?_⟩
    rcases follows '.' tail same with other | other | other <;> revert other <;> decide
  | some e =>
    have mark : ∃ marked, e.chars = 'e' :: marked := by
      unfold Exponent.chars
      split <;> exact ⟨_, rfl⟩
    obtain ⟨marked, same⟩ := mark
    simp only [Option.elim_some, same, List.cons_append]
    exact ⟨noDigit_cons (by decide), fun tail other => by cases other⟩

private theorem readFraction_chars {digits tail : List Char} (all : ∀ c ∈ digits, c.isDigit = true) (stops : NoDigit tail)
    (other : ∀ rest, tail ≠ '.' :: rest) :
    Numeral.readFraction ((if digits.isEmpty then [] else '.' :: digits) ++ tail) = some (digits, tail) := by
  cases digits with
  | nil =>
    simp only [List.isEmpty_nil, if_true, List.nil_append]
    unfold Numeral.readFraction
    split
    · exact absurd rfl (other _)
    · rfl
  | cons first digits =>
    have taken := takeWhile_digits all stops
    have dropped := dropWhile_digits all stops
    simp only [List.isEmpty_cons, if_neg (Bool.false_ne_true), List.cons_append] at taken dropped ⊢
    simp [Numeral.readFraction, taken, dropped]

theorem fraction_begins {digits tail : List Char} (stops : NoDigit tail) :
    NoDigit ((if digits.isEmpty then [] else '.' :: digits) ++ tail) := by
  cases digits with
  | nil => exact stops
  | cons first digits => exact noDigit_cons (by decide)

private theorem readNumeral_chars {n : Numeral} (written : Written n) {rest : List Char} (follows : Follows rest) :
    Numeral.read? (n.chars ++ rest) = some (n, rest) := by
  obtain ⟨stops, other⟩ := exponent_begins n follows
  have after := readExponent_chars written follows
  have fraction := readFraction_chars written.fraction stops other
  have unsigned : NoDigit ((if n.fraction.isEmpty then [] else '.' :: n.fraction) ++ (n.exponent.elim [] Exponent.chars ++ rest)) :=
    fraction_begins stops
  have taken := takeWhile_digits written.digits unsigned
  have dropped := dropWhile_digits written.digits unsigned
  have whole := written.whole
  obtain ⟨negative, digits, places, exponent⟩ := n
  simp only [Numeral.chars, List.append_assoc] at *
  generalize (if places.isEmpty then [] else '.' :: places) = pointed at *
  cases negative with
  | true => simp [Numeral.read?, taken, dropped, whole, fraction, after]
  | false =>
    cases digits with
    | nil => cases whole
    | cons first digits =>
      have digit := written.digits first List.mem_cons_self
      have minus : first ≠ '-' := by rintro rfl; revert digit; decide
      simp only [List.cons_append] at taken dropped
      simp [Numeral.read?, minus, taken, dropped, whole, fraction, after]

/-! ## Trees -/

namespace Tree

mutual

/-- The characters of a written document. -/
def chars : Tree → List Char
  | null => ['n', 'u', 'l', 'l']
  | bool true => ['t', 'r', 'u', 'e']
  | bool false => ['f', 'a', 'l', 's', 'e']
  | number n => n.chars
  | text raw => '"' :: (raw ++ ['"'])
  | array items => '[' :: (itemsChars items ++ [']'])
  | object members => '\x7b' :: (membersChars members ++ ['\x7d'])

/-- The characters of written items. -/
def itemsChars : List Tree → List Char
  | [] => []
  | [item] => item.chars
  | item :: next :: rest => item.chars ++ ',' :: itemsChars (next :: rest)

/-- The characters of written members. -/
def membersChars : List (List Char × Tree) → List Char
  | [] => []
  | [member] => memberChars member
  | member :: next :: rest => memberChars member ++ ',' :: membersChars (next :: rest)

/-- The characters of a written member. -/
def memberChars : List Char × Tree → List Char
  | (raw, t) => '"' :: (raw ++ '"' :: ':' :: t.chars)

end

private theorem foldl_push (out : String) (cs : List Char) : (cs.foldl String.push out).toList = out.toList ++ cs := by
  induction cs generalizing out with
  | nil => simp
  | cons c cs ih => rw [List.foldl_cons, ih, String.toList_push, List.append_assoc, List.singleton_append]

private theorem toList_appendRaw (out : String) (raw : List Char) :
    (appendRaw out raw).toList = out.toList ++ '"' :: (raw ++ ['"']) := by
  rw [appendRaw, String.toList_push, foldl_push, String.toList_push]
  simp

mutual

private theorem toList_append (out : String) (t : Tree) : (append out t).toList = out.toList ++ t.chars := by
  cases t with
  | null => simp [append, chars]
  | bool b => cases b <;> rw [append, chars, String.toList_append] <;> rfl
  | number n => rw [append, chars, foldl_push]
  | text raw => rw [append, chars, toList_appendRaw]
  | array items =>
    rw [append, chars, String.toList_push, toList_appendItems, String.toList_push]
    simp
  | object members =>
    rw [append, chars, String.toList_push, toList_appendMembers, String.toList_push]
    simp

theorem toList_appendItems (out : String) (items : List Tree) :
    (appendItems out items).toList = out.toList ++ itemsChars items := by
  match items with
  | [] => simp [appendItems, itemsChars]
  | [item] => rw [appendItems, itemsChars, toList_append]
  | item :: next :: rest =>
    rw [appendItems, itemsChars, toList_appendItems, String.toList_push, toList_append]
    simp

theorem toList_appendMembers (out : String) (members : List (List Char × Tree)) :
    (appendMembers out members).toList = out.toList ++ membersChars members := by
  match members with
  | [] => simp [appendMembers, membersChars]
  | [member] => rw [appendMembers, membersChars, toList_appendMember]
  | member :: next :: rest =>
    rw [appendMembers, membersChars, toList_appendMembers, String.toList_push, toList_appendMember]
    simp

theorem toList_appendMember (out : String) (member : List Char × Tree) :
    (appendMember out member).toList = out.toList ++ memberChars member := by
  obtain ⟨raw, t⟩ := member
  rw [appendMember, memberChars, toList_append, String.toList_push, toList_appendRaw]
  simp

end

private theorem toList_write (t : Tree) : t.write.toList = t.chars := by
  rw [write, toList_append]
  simp

/-- A document as it is made here: its numerals are those of JSON, and its texts and names are escaped. -/
inductive Made : Tree → Prop
  | null : Made null
  | bool (b : Bool) : Made (bool b)
  | number {n : Numeral} (written : Written n) : Made (number n)
  | text (s : String) : Made (ofText s)
  | array {items : List Tree} (all : ∀ item ∈ items, Made item) : Made (array items)
  | object {members : List (List Char × Tree)} (all : ∀ member ∈ members, Made member.2)
      (names : ∀ member ∈ members, ∃ name, member.1 = escapeAll name) : Made (object members)

/-- A numeral begins with a digit or the sign. -/
theorem numeral_begins {n : Numeral} (written : Written n) :
    ∃ c tail, n.chars = c :: tail ∧ (c.isDigit = true ∨ c = '-') := by
  have whole := written.whole
  have digits := written.digits
  unfold Numeral.chars
  cases n.negative with
  | true => exact ⟨'-', _, rfl, .inr rfl⟩
  | false =>
    cases shape : n.whole with
    | nil =>
      rw [shape] at whole
      cases whole
    | cons first others => exact ⟨first, _, rfl, .inl (digits first (shape ▸ List.mem_cons_self))⟩

theorem isDigit_lt {c : Char} (digit : c.isDigit = true) : '0'.toNat ≤ c.toNat ∧ c.toNat ≤ '9'.toNat := by
  simpa [Char.isDigit, Char.le_def, UInt32.le_iff_toNat_le] using digit

/-- A document begins with no space and no bracket that closes. -/
theorem Made.begins {t : Tree} (made : t.Made) :
    ∃ c tail, t.chars = c :: tail ∧ isSpace c = false ∧ c ≠ ']' := by
  cases made with
  | null => exact ⟨_, _, rfl, by decide, by decide⟩
  | bool b => cases b <;> exact ⟨_, _, rfl, by decide, by decide⟩
  | text s => exact ⟨_, _, rfl, by decide, by decide⟩
  | array all => exact ⟨_, _, rfl, by decide, by decide⟩
  | object all names => exact ⟨_, _, rfl, by decide, by decide⟩
  | number written =>
    obtain ⟨c, tail, same, digit | rfl⟩ := numeral_begins written
    · refine ⟨c, tail, same, ?_, ?_⟩
      · have bounds := isDigit_lt digit
        have spaces : ∀ space : Char, space.toNat < '0'.toNat → c ≠ space := by
          rintro space small rfl
          omega
        simp [isSpace, spaces ' ' (by decide), spaces '\n' (by decide), spaces '\t' (by decide), spaces '\r' (by decide)]
      · rintro rfl
        revert digit
        decide
    · exact ⟨_, tail, same, by decide, by decide⟩

private theorem skipSpaces_cons {c : Char} {tail : List Char} (solid : isSpace c = false) : skipSpaces (c :: tail) = c :: tail := by
  rw [skipSpaces, List.dropWhile_cons, solid]
  rfl

/-- A document that is found again in front of anything that may follow it. -/
def Reads (t : Tree) : Prop :=
  ∀ fuel rest, 2 * t.chars.length ≤ fuel → Follows rest → readTree fuel (t.chars ++ rest) = some (t, rest)

private theorem readItems_chars {items : List Tree} (filled : items ≠ []) (each : ∀ item ∈ items, item.Reads) :
    ∀ fuel done rest, 2 * (itemsChars items).length + 1 ≤ fuel →
      readItems fuel done (itemsChars items ++ ']' :: rest) = some (array (done.reverse ++ items), rest) := by
  induction items with
  | nil => exact absurd rfl filled
  | cons item items ih =>
    intro fuel done rest enough
    obtain ⟨fuel, rfl⟩ : ∃ smaller, fuel = smaller + 1 := ⟨fuel - 1, by omega⟩
    have here := each item List.mem_cons_self
    cases items with
    | nil =>
      simp only [itemsChars] at enough ⊢
      rw [readItems, here fuel (']' :: rest) (by omega) (follows_cons (by simp))]
      simp [skipSpaces_cons (show isSpace ']' = false by decide)]
    | cons next others =>
      have later := ih (by simp) (fun other member => each other (List.mem_cons_of_mem _ member))
      simp only [itemsChars, List.length_append, List.length_cons] at enough ⊢
      rw [List.append_assoc, List.cons_append, readItems, here fuel _ (by omega) (follows_cons (by simp))]
      simp only [skipSpaces_cons (show isSpace ',' = false by decide)]
      rw [later fuel (item :: done) rest (by omega)]
      simp

private theorem readName_chars (name : String) (rest : List Char) :
    readName ('"' :: (escapeAll name ++ '"' :: ':' :: rest)) = some (escapeAll name, rest) := by
  rw [readName, skipSpaces_cons (by decide)]
  simp only [raw?_escapeAll, skipSpaces_cons (show isSpace ':' = false by decide)]

private theorem readMembers_chars {members : List (List Char × Tree)} (filled : members ≠ [])
    (each : ∀ member ∈ members, member.2.Reads) (names : ∀ member ∈ members, ∃ name, member.1 = escapeAll name) :
    ∀ fuel done rest, 2 * (membersChars members).length + 1 ≤ fuel →
      readMembers fuel done (membersChars members ++ '\x7d' :: rest) = some (object (done.reverse ++ members), rest) := by
  induction members with
  | nil => exact absurd rfl filled
  | cons member members ih =>
    intro fuel done rest enough
    obtain ⟨fuel, rfl⟩ : ∃ smaller, fuel = smaller + 1 := ⟨fuel - 1, by omega⟩
    obtain ⟨raw, t⟩ := member
    have here := each (raw, t) List.mem_cons_self
    obtain ⟨name, same⟩ := names (raw, t) List.mem_cons_self
    simp only at here same
    subst same
    cases members with
    | nil =>
      simp only [membersChars, memberChars, List.length_cons, List.length_append] at enough
      simp only [membersChars, memberChars, List.cons_append, List.append_assoc]
      rw [readMembers, readName_chars]
      simp only [here fuel ('\x7d' :: rest) (by omega) (follows_cons (by simp)),
        skipSpaces_cons (show isSpace '\x7d' = false by decide)]
      simp
    | cons next others =>
      have later := ih (by simp) (fun other member => each other (List.mem_cons_of_mem _ member))
        (fun other member => names other (List.mem_cons_of_mem _ member))
      simp only [membersChars, memberChars, List.length_cons, List.length_append] at enough
      simp only [membersChars, memberChars, List.cons_append, List.append_assoc]
      rw [readMembers, readName_chars]
      simp only [here fuel (',' :: (membersChars (next :: others) ++ '\x7d' :: rest)) (by omega) (follows_cons (by simp)),
        skipSpaces_cons (show isSpace ',' = false by decide)]
      rw [later fuel ((escapeAll name, t) :: done) rest (by omega)]
      simp

private theorem reads_bool (b : Bool) : (bool b).Reads := by
  intro fuel rest enough _
  obtain ⟨fuel, rfl⟩ : ∃ smaller, fuel = smaller + 1 :=
    ⟨fuel - 1, by cases b <;> simp only [chars, List.length_cons] at enough <;> omega⟩
  cases b <;> rfl

private theorem reads_number {n : Numeral} (written : Written n) : (number n).Reads := by
  intro fuel rest enough follows
  obtain ⟨c, tail, same, first⟩ := numeral_begins written
  obtain ⟨c', tail', same', solid, -⟩ := (Made.number written).begins
  simp only [chars] at enough same' ⊢
  obtain ⟨rfl, rfl⟩ := List.cons.inj (same.symm.trans same')
  obtain ⟨fuel, rfl⟩ : ∃ smaller, fuel = smaller + 1 := ⟨fuel - 1, by simp only [same, List.length_cons] at enough; omega⟩
  have read := readNumeral_chars written follows
  have others : ∀ letter : Char, letter.isDigit = false → letter ≠ '-' → c ≠ letter := by
    rintro letter digit minus rfl
    rcases first with digit' | minus'
    · simp [digit] at digit'
    · exact minus minus'
  rw [same] at read ⊢
  simp only [List.cons_append] at read ⊢
  rw [readTree, skipSpaces_cons solid]
  simp [others 'n' (by decide) (by decide), others 't' (by decide) (by decide), others 'f' (by decide) (by decide),
    others '"' (by decide) (by decide), others '[' (by decide) (by decide), others '\x7b' (by decide) (by decide), read]

private theorem reads_text (s : String) : (ofText s).Reads := by
  intro fuel rest enough _
  obtain ⟨fuel, rfl⟩ : ∃ smaller, fuel = smaller + 1 :=
    ⟨fuel - 1, by simp only [ofText, chars, List.length_cons] at enough; omega⟩
  simp only [ofText, chars, List.cons_append, List.append_assoc, List.nil_append]
  rw [readTree, skipSpaces_cons (by decide)]
  simp [raw?_escapeAll]

private theorem reads_array {items : List Tree} (all : ∀ item ∈ items, item.Made) (each : ∀ item ∈ items, item.Reads) :
    (array items).Reads := by
  intro fuel rest enough _
  simp only [chars, List.length_cons, List.length_append] at enough
  simp only [chars, List.cons_append, List.append_assoc, List.nil_append]
  obtain ⟨fuel, rfl⟩ : ∃ smaller, fuel = smaller + 1 := ⟨fuel - 1, by omega⟩
  rw [readTree, skipSpaces_cons (by decide)]
  cases items with
  | nil => rfl
  | cons item items =>
    have read := readItems_chars (by simp) each fuel [] rest (by omega)
    obtain ⟨c, tail, same, solid, other⟩ := (all item List.mem_cons_self).begins
    have begins : ∃ tail, itemsChars (item :: items) ++ ']' :: rest = c :: tail := by
      cases items with
      | nil => exact ⟨_, by rw [itemsChars, same, List.cons_append]⟩
      | cons next others => exact ⟨_, by rw [itemsChars, same, List.cons_append, List.cons_append]⟩
    obtain ⟨tail, same⟩ := begins
    rw [same] at read ⊢
    simp [skipSpaces_cons solid, other, read]

private theorem reads_object {members : List (List Char × Tree)} (names : ∀ member ∈ members, ∃ name, member.1 = escapeAll name)
    (each : ∀ member ∈ members, member.2.Reads) : (object members).Reads := by
  intro fuel rest enough _
  simp only [chars, List.length_cons, List.length_append] at enough
  simp only [chars, List.cons_append, List.append_assoc, List.nil_append]
  obtain ⟨fuel, rfl⟩ : ∃ smaller, fuel = smaller + 1 := ⟨fuel - 1, by omega⟩
  rw [readTree, skipSpaces_cons (by decide)]
  cases members with
  | nil => rfl
  | cons member members =>
    have read := readMembers_chars (by simp) each names fuel [] rest (by omega)
    have begins : ∃ tail, membersChars (member :: members) ++ '\x7d' :: rest = '"' :: tail := by
      obtain ⟨raw, t⟩ := member
      cases members with
      | nil => exact ⟨_, by rw [membersChars, memberChars, List.cons_append]⟩
      | cons next others => exact ⟨_, by rw [membersChars, memberChars, List.cons_append, List.cons_append]⟩
    obtain ⟨tail, same⟩ := begins
    rw [same] at read ⊢
    simp [skipSpaces_cons (show isSpace '"' = false by decide), read]

theorem Made.reads {t : Tree} (made : t.Made) : t.Reads := by
  induction made with
  | null =>
    intro fuel rest enough _
    obtain ⟨fuel, rfl⟩ : ∃ smaller, fuel = smaller + 1 := ⟨fuel - 1, by simp only [chars, List.length_cons] at enough; omega⟩
    rfl
  | bool b => exact reads_bool b
  | number written => exact reads_number written
  | text s => exact reads_text s
  | array all each => exact reads_array all each
  | object _ names each => exact reads_object names each

/-- What has been written reads as what it was. -/
theorem read?_write {t : Tree} (made : t.Made) : read? t.write = some t := by
  have read := made.reads (2 * t.chars.length + 2) [] (by omega) follows_nil
  rw [List.append_nil] at read
  rw [read?, toList_write, read]
  rfl

end Tree

end Scriptorium.Json
