import Scriptorium.Proofs.LineTables

/-!
# Building chunks

A chunk is built by edits in any order: bytes, operations and words are appended, words that stand in the code are overwritten, and
constants are added to the pool. Operands hold indices of constants while the pool goes on growing, and texts share an index where
numbers do not; so nothing may move. It does not (`building_keeps_content`): whatever the edits, each byte has its line, a text
stands in the pool once, and what is in a chunk stays in it, but for the bytes of words that are overwritten. An index that has been
given out names its constant for ever, and so does an operand that holds it (`operand_names_constant`).

What one edit keeps (`edit?_survives`, `edit?_orderly`) any number of them keep. Nothing more can be said of a chunk that has been
built: every orderly one can be (`build?_iff_orderly`). A word may be left open and filled in when it is known, as the distance of a
jump is: the chunk is the one in which the word has been written at once (`build?_overwritten`).
-/
namespace Scriptorium.Bytecode

open Compile (Grows addConstant_grows getElem?_push_of_some)

/-- What is done to a chunk that is being built. -/
inductive Edit
  | write (byte : UInt8) (line : Nat)
  | writeOp (op : Opcode) (line : Nat)
  | writeWord (word : UInt16) (line : Nat)
  | patchWord (offset : Nat) (word : UInt16)
  | addConstant (value : Value)
deriving Repr

/-- An edit overwrites the byte at an offset. -/
def Edit.Overwrites : Edit → Nat → Prop
  | patchWord start _, offset => offset = start ∨ offset = start + 1
  | _, _ => False

namespace Chunk

/-- A chunk after an edit. There is none when a word is to be overwritten that does not lie in the code. -/
def edit? (chunk : Chunk) : Edit → Option Chunk
  | .write byte line => some (chunk.write byte line)
  | .writeOp op line => some (chunk.writeOp op line)
  | .writeWord word line => some (chunk.writeWord word line)
  | .patchWord offset word => if offset + 1 < chunk.code.size then some (chunk.patchWord offset word) else none
  | .addConstant value => some (chunk.addConstant value).2

/-- A chunk after edits, one after the other. -/
def build? (chunk : Chunk) (edits : List Edit) : Option Chunk := edits.foldlM edit? chunk

theorem build?_nil (chunk : Chunk) : chunk.build? [] = some chunk := rfl

private theorem build?_cons (chunk : Chunk) (edit : Edit) (edits : List Edit) :
    chunk.build? (edit :: edits) = (chunk.edit? edit).bind fun next => next.build? edits := rfl

private theorem build?_cons_eq_some {chunk later : Chunk} {edit : Edit} {edits : List Edit} :
    chunk.build? (edit :: edits) = some later ↔ ∃ next, chunk.edit? edit = some next ∧ next.build? edits = some later := by
  rw [build?_cons, Option.bind_eq_some_iff]

private theorem build?_append (chunk : Chunk) (edits more : List Edit) :
    chunk.build? (edits ++ more) = (chunk.build? edits).bind fun next => next.build? more :=
  List.foldlM_append

/-- A word can be overwritten exactly where both of its bytes lie in the code. -/
theorem edit?_patchWord_eq_some {chunk later : Chunk} {offset : Nat} {word : UInt16} :
    chunk.edit? (.patchWord offset word) = some later ↔ offset + 1 < chunk.code.size ∧ chunk.patchWord offset word = later := by
  simp [edit?]

end Chunk

namespace Chunk

/-- What is in a chunk is in another to which edits have led: constants at their indices, lines, and all bytes that the edits do not
overwrite. -/
structure Survives (chunk : Chunk) (edits : List Edit) (later : Chunk) : Prop where
  constants : Grows chunk.constants later.constants
  lines : ∀ offset line, chunk.lineAt? offset = some line → later.lineAt? offset = some line
  code : ∀ offset byte, chunk.code[offset]? = some byte → (∀ edit ∈ edits, ¬ edit.Overwrites offset) →
    later.code[offset]? = some byte

theorem Survives.refl (chunk : Chunk) : chunk.Survives [] chunk :=
  ⟨Grows.refl _, fun _ _ found => found, fun _ _ found _ => found⟩

theorem Survives.trans {a b c : Chunk} {edits more : List Edit} (first : a.Survives edits b) (second : b.Survives more c) :
    a.Survives (edits ++ more) c where
  constants := first.constants.trans second.constants
  lines offset line found := second.lines offset line (first.lines offset line found)
  code offset byte found untouched := by
    obtain ⟨before, after⟩ := List.forall_mem_append.mp untouched
    exact second.code offset byte (first.code offset byte found before) after

private theorem write_survives (chunk : Chunk) (byte : UInt8) (line : Nat) : chunk.Survives [] (chunk.write byte line) where
  constants := Grows.refl _
  lines _ _ found := getElem?_push_of_some found
  code _ _ found _ := getElem?_push_of_some found

private theorem writeWord_survives (chunk : Chunk) (word : UInt16) (line : Nat) : chunk.Survives [] (chunk.writeWord word line) :=
  (chunk.write_survives _ line).trans (write_survives _ _ line)

private theorem addConstant_survives (chunk : Chunk) (value : Value) : chunk.Survives [] (chunk.addConstant value).2 where
  constants := (addConstant_grows rfl).1
  lines _ _ found := found
  code _ _ found _ := found

private theorem patchWord_code {chunk : Chunk} {offset other : Nat} {word : UInt16} (apart : other ≠ offset)
    (next : other ≠ offset + 1) : (chunk.patchWord offset word).code[other]? = chunk.code[other]? := by
  rw [patchWord, Array.getElem?_setIfInBounds_ne next.symm, Array.getElem?_setIfInBounds_ne apart.symm]

private theorem patchWord_survives (chunk : Chunk) (offset : Nat) (word : UInt16) :
    chunk.Survives [.patchWord offset word] (chunk.patchWord offset word) where
  constants := Grows.refl _
  lines _ _ found := found
  code other byte found untouched := by
    obtain ⟨apart, next⟩ := not_or.mp (untouched _ List.mem_cons_self)
    rw [patchWord_code apart next, found]

/-- What overwrites nothing keeps all bytes, whichever edit it is. -/
theorem Survives.edit {chunk later : Chunk} (survives : chunk.Survives [] later) (edit : Edit) : chunk.Survives [edit] later :=
  { survives with code := fun offset byte found _ => survives.code offset byte found (List.forall_mem_nil _) }

/-- One edit keeps what it does not overwrite. -/
theorem edit?_survives {chunk later : Chunk} {edit : Edit} (made : chunk.edit? edit = some later) :
    chunk.Survives [edit] later := by
  cases edit with
  | write byte line =>
    cases made
    exact (chunk.write_survives byte line).edit _
  | writeOp op line =>
    cases made
    exact (chunk.write_survives op.toByte line).edit _
  | writeWord word line =>
    cases made
    exact (chunk.writeWord_survives word line).edit _
  | patchWord offset word =>
    rw [← (edit?_patchWord_eq_some.mp made).2]
    exact chunk.patchWord_survives offset word
  | addConstant value =>
    cases made
    exact (chunk.addConstant_survives value).edit _

private theorem build?_survives {chunk later : Chunk} {edits : List Edit} (made : chunk.build? edits = some later) :
    chunk.Survives edits later := by
  induction edits generalizing chunk with
  | nil =>
    cases made
    exact .refl _
  | cons edit edits ih =>
    obtain ⟨next, first, rest⟩ := build?_cons_eq_some.mp made
    exact (edit?_survives first).trans (ih rest)

end Chunk

/-- No text stands at two indices. -/
def TextsApart (constants : Array Value) : Prop :=
  ∀ (i j : Nat) (s : String), constants[i]? = some (.text s) → constants[j]? = some (.text s) → i = j

private theorem findText?_eq_none {constants : Array Value} {s : String} (absent : findText? constants s = none) (i : Nat) :
    constants[i]? ≠ some (.text s) := by
  intro found
  have differs := Array.findIdx?_eq_none_iff.mp absent (.text s) (Array.mem_of_getElem? found)
  simp at differs

/-- Adding a constant leaves the others as they are, or puts it after them; a text only when it is none of them. -/
theorem addConstant_cases (constants : Array Value) (value : Value) :
    (∃ index, addConstant constants value = (index, constants)) ∨
      (addConstant constants value = (constants.size, constants.push value) ∧
        ∀ s, value = .text s → ∀ i : Nat, constants[i]? ≠ some (.text s)) := by
  cases value with
  | text s =>
    cases found : findText? constants s with
    | some index => exact .inl ⟨index, by simp only [addConstant, found]⟩
    | none =>
      refine .inr ⟨by simp only [addConstant, found], ?_⟩
      intro t same
      cases same
      exact findText?_eq_none found
  | number _ | bool _ | null =>
    refine .inr ⟨rfl, ?_⟩
    intro s same
    cases same

theorem TextsApart.push {constants : Array Value} {value : Value} (apart : TextsApart constants)
    (new : ∀ s, value = .text s → ∀ i : Nat, constants[i]? ≠ some (.text s)) : TextsApart (constants.push value) := by
  intro i j s first second
  rw [Array.getElem?_push] at first second
  split at first
  · split at second
    · omega
    · exact absurd second (new s (Option.some.inj first) j)
  · split at second
    · exact absurd first (new s (Option.some.inj second) i)
    · exact apart i j s first second

theorem TextsApart.addConstant {constants : Array Value} (apart : TextsApart constants) (value : Value) :
    TextsApart (addConstant constants value).2 := by
  obtain ⟨index, added⟩ | ⟨added, new⟩ := addConstant_cases constants value
  · rwa [added]
  · rw [added]
    exact apart.push new

theorem TextsApart.of_push {constants : Array Value} {value : Value} (apart : TextsApart (constants.push value)) :
    TextsApart constants :=
  fun i j s first second => apart i j s (getElem?_push_of_some first) (getElem?_push_of_some second)

private theorem addConstant_new {constants : Array Value} {value : Value} (apart : TextsApart (constants.push value)) :
    addConstant constants value = (constants.size, constants.push value) := by
  cases value with
  | text s =>
    obtain ⟨index, added⟩ | ⟨added, -⟩ := addConstant_cases constants (.text s)
    · have found := (addConstant_grows added).2
      have last := apart index constants.size s (getElem?_push_of_some found) Array.getElem?_push_size
      exact absurd last (Nat.ne_of_lt (Array.getElem?_eq_some_iff.mp found).1)
    · exact added
  | number _ | bool _ | null => rfl

/-- A text that stands among the constants is given out at its index again. -/
theorem TextsApart.addConstant_text {constants : Array Value} (apart : TextsApart constants) {s : String} {index : Nat}
    (found : constants[index]? = some (.text s)) : Bytecode.addConstant constants (.text s) = (index, constants) := by
  obtain ⟨other, added⟩ | ⟨-, new⟩ := addConstant_cases constants (.text s)
  · rw [added, apart index other s found (addConstant_grows added).2]
  · exact absurd found (new s rfl index)

/-! ## Chunks that have been built -/

namespace Chunk

/-- Each byte has its line, and no text stands in the pool twice. -/
structure Orderly (chunk : Chunk) : Prop where
  lined : chunk.Lined
  texts : TextsApart chunk.constants

theorem Orderly.empty : empty.Orderly := ⟨rfl, fun _ _ _ found => by simp [Chunk.empty] at found⟩

theorem Orderly.write {chunk : Chunk} (orderly : chunk.Orderly) (byte : UInt8) (line : Nat) : (chunk.write byte line).Orderly where
  lined := by simpa [Lined, Chunk.write] using orderly.lined
  texts := orderly.texts

/-- One edit keeps a chunk orderly. -/
theorem edit?_orderly {chunk later : Chunk} {edit : Edit} (orderly : chunk.Orderly) (made : chunk.edit? edit = some later) :
    later.Orderly := by
  cases edit with
  | write byte line =>
    cases made
    exact orderly.write byte line
  | writeOp op line =>
    cases made
    exact orderly.write op.toByte line
  | writeWord word line =>
    cases made
    exact (orderly.write (highByte word) line).write (lowByte word) line
  | patchWord offset word =>
    obtain ⟨-, rfl⟩ := edit?_patchWord_eq_some.mp made
    exact ⟨by simpa [Lined, patchWord] using orderly.lined, orderly.texts⟩
  | addConstant value =>
    cases made
    exact ⟨orderly.lined, orderly.texts.addConstant value⟩

private theorem build?_orderly {chunk later : Chunk} {edits : List Edit} (orderly : chunk.Orderly)
    (made : chunk.build? edits = some later) : later.Orderly := by
  induction edits generalizing chunk with
  | nil =>
    cases made
    exact orderly
  | cons edit edits ih =>
    obtain ⟨next, first, rest⟩ := build?_cons_eq_some.mp made
    exact ih (edit?_orderly orderly first) rest

private theorem build?_bytes (chunk : Chunk) (bytes : List (UInt8 × Nat)) :
    chunk.build? (bytes.map fun placed => .write placed.1 placed.2) =
      some ⟨chunk.code ++ (bytes.map Prod.fst).toArray, chunk.constants, chunk.lines ++ (bytes.map Prod.snd).toArray⟩ := by
  induction bytes generalizing chunk with
  | nil => simp [build?_nil]
  | cons placed bytes ih =>
    rw [List.map_cons, build?_cons, edit?, Option.bind_some, ih]
    simp [write]

private theorem build?_constants {constants : List Value} (apart : TextsApart constants.toArray) :
    empty.build? (constants.map .addConstant) = some ⟨#[], constants.toArray, #[]⟩ := by
  induction constants using List.reverseRecOn with
  | nil => rfl
  | append_singleton constants value ih =>
    rw [← List.push_toArray] at apart ⊢
    rw [List.map_append, build?_append, ih apart.of_push, Option.bind_some, List.map_singleton, build?_cons, edit?,
      addConstant, addConstant_new apart]
    rfl

/-- The chunks that can be built from nothing are the orderly ones. -/
theorem build?_iff_orderly {chunk : Chunk} : (∃ edits, empty.build? edits = some chunk) ↔ chunk.Orderly := by
  constructor
  · rintro ⟨edits, made⟩
    exact build?_orderly .empty made
  · intro orderly
    have texts : TextsApart chunk.constants.toList.toArray := orderly.texts
    have same : chunk.code.toList.length = chunk.lines.toList.length := by simpa using orderly.lined.symm
    refine ⟨chunk.constants.toList.map .addConstant ++
      (chunk.code.toList.zip chunk.lines.toList).map fun placed => .write placed.1 placed.2, ?_⟩
    rw [build?_append, build?_constants texts, Option.bind_some, build?_bytes, List.map_fst_zip same.le, List.map_snd_zip same.ge]
    simp

/-- In a chunk a word has been overwritten and nothing else. -/
structure Patched (chunk : Chunk) (offset : Nat) (word : UInt16) (patched : Chunk) : Prop where
  word : patched.readWord? offset = some word
  code : ∀ other, other ≠ offset → other ≠ offset + 1 → patched.code[other]? = chunk.code[other]?
  lines : patched.lines = chunk.lines
  constants : patched.constants = chunk.constants

private theorem readWord?_eq_some {chunk : Chunk} {offset : Nat} {word : UInt16} : chunk.readWord? offset = some word ↔
    ∃ high low, chunk.code[offset]? = some high ∧ chunk.code[offset + 1]? = some low ∧ wordOf high low = word := by
  simp [readWord?, Option.bind_eq_some_iff]

/-- A word survives when neither of its bytes is overwritten. -/
theorem Survives.readWord? {chunk later : Chunk} {edits : List Edit} {offset : Nat} {word : UInt16}
    (survives : chunk.Survives edits later) (found : chunk.readWord? offset = some word)
    (apart : ∀ edit ∈ edits, ¬ edit.Overwrites offset ∧ ¬ edit.Overwrites (offset + 1)) :
    later.readWord? offset = some word := by
  obtain ⟨high, low, first, second, same⟩ := readWord?_eq_some.mp found
  exact readWord?_eq_some.mpr ⟨high, low, survives.code _ _ first fun edit member => (apart edit member).1,
    survives.code _ _ second fun edit member => (apart edit member).2, same⟩

private theorem readWord?_writeWord (chunk : Chunk) (word : UInt16) (line : Nat) :
    (chunk.writeWord word line).readWord? chunk.code.size = some word := by
  have size : (chunk.write (highByte word) line).code.size = chunk.code.size + 1 := Array.size_push _
  refine readWord?_eq_some.mpr ⟨_, lowByte word, getElem?_push_of_some Array.getElem?_push_size, ?_, wordOf_bytes word⟩
  rw [← size]
  exact Array.getElem?_push_size

private theorem patchWord_patched {chunk : Chunk} {offset : Nat} (inside : offset + 1 < chunk.code.size) (word : UInt16) :
    chunk.Patched offset word (chunk.patchWord offset word) where
  word := by
    have high : (chunk.patchWord offset word).code[offset]? = some (highByte word) := by
      simp [patchWord, Nat.lt_of_succ_lt inside]
    have low : (chunk.patchWord offset word).code[offset + 1]? = some (lowByte word) := by
      simp [patchWord, inside]
    exact readWord?_eq_some.mpr ⟨_, _, high, low, wordOf_bytes word⟩
  code _ apart next := patchWord_code apart next
  lines := rfl
  constants := rfl

private theorem patchWord_write {chunk : Chunk} {offset : Nat} (inside : offset + 1 < chunk.code.size) (word : UInt16) (byte : UInt8)
    (line : Nat) : (chunk.write byte line).patchWord offset word = (chunk.patchWord offset word).write byte line := by
  have code : ((chunk.code.push byte).setIfInBounds offset (highByte word)).setIfInBounds (offset + 1) (lowByte word) =
      ((chunk.code.setIfInBounds offset (highByte word)).setIfInBounds (offset + 1) (lowByte word)).push byte := by
    grind
  simp only [write, patchWord, code]

private theorem patchWord_comm (chunk : Chunk) {offset other : Nat} (word another : UInt16)
    (apart : other ≠ offset ∧ other ≠ offset + 1 ∧ other + 1 ≠ offset) :
    (chunk.patchWord other another).patchWord offset word = (chunk.patchWord offset word).patchWord other another := by
  obtain ⟨first, before, after⟩ := apart
  have second : other + 1 ≠ offset + 1 := fun same => first (Nat.succ.inj same)
  simp only [patchWord]
  rw [Array.setIfInBounds_comm (lowByte another) (highByte word) after, Array.setIfInBounds_comm (highByte another) (highByte word) first,
    Array.setIfInBounds_comm (lowByte another) (lowByte word) second, Array.setIfInBounds_comm (highByte another) (lowByte word) before]

/-- A word that an edit does not overwrite can be overwritten before the edit or after it. -/
theorem edit?_patchWord {chunk later : Chunk} {edit : Edit} {offset : Nat} (word : UInt16) (made : chunk.edit? edit = some later)
    (inside : offset + 1 < chunk.code.size) (apart : ¬ edit.Overwrites offset ∧ ¬ edit.Overwrites (offset + 1)) :
    (chunk.patchWord offset word).edit? edit = some (later.patchWord offset word) := by
  cases edit with
  | write byte line =>
    cases made
    rw [patchWord_write inside]
    rfl
  | writeOp op line =>
    cases made
    rw [writeOp, patchWord_write inside]
    rfl
  | writeWord other line =>
    cases made
    have within : offset + 1 < (chunk.write (highByte other) line).code.size := by
      rw [write, Array.size_push]
      exact Nat.lt_succ_of_lt inside
    rw [writeWord, patchWord_write within, patchWord_write inside]
    rfl
  | patchWord other another =>
    obtain ⟨room, rfl⟩ := edit?_patchWord_eq_some.mp made
    simp only [Edit.Overwrites] at apart
    rw [patchWord_comm chunk word another (by omega), edit?_patchWord_eq_some]
    exact ⟨by simpa [patchWord] using room, rfl⟩
  | addConstant value =>
    cases made
    rfl

private theorem build?_patchWord {chunk later : Chunk} {edits : List Edit} {offset : Nat} (word : UInt16)
    (made : chunk.build? edits = some later) (inside : offset + 1 < chunk.code.size)
    (apart : ∀ edit ∈ edits, ¬ edit.Overwrites offset ∧ ¬ edit.Overwrites (offset + 1)) :
    (chunk.patchWord offset word).build? edits = some (later.patchWord offset word) := by
  induction edits generalizing chunk with
  | nil =>
    cases made
    rfl
  | cons edit edits ih =>
    obtain ⟨next, first, rest⟩ := build?_cons_eq_some.mp made
    obtain ⟨here, others⟩ := List.forall_mem_cons.mp apart
    -- the byte after the offset survives the edit, so that the word still lies in the code
    have kept := (edit?_survives first).code (offset + 1) _ (Array.getElem?_eq_getElem inside)
      (List.forall_mem_singleton.mpr here.2)
    have within := (Array.getElem?_eq_some_iff.mp kept).1
    exact build?_cons_eq_some.mpr ⟨_, edit?_patchWord word first inside here, ih rest within others⟩

private theorem writeWord_patchWord (chunk : Chunk) (gap word : UInt16) (line : Nat) :
    (chunk.writeWord gap line).patchWord chunk.code.size word = chunk.writeWord word line := by
  have code : (((chunk.code.push (highByte gap)).push (lowByte gap)).setIfInBounds chunk.code.size
      (highByte word)).setIfInBounds (chunk.code.size + 1) (lowByte word) =
        (chunk.code.push (highByte word)).push (lowByte word) := by
    grind
  simp only [writeWord, write, patchWord, code]

/-- A word that is left open and filled in after more edits is as good as one that is written at once, as long as no other word
is overwritten in its place. -/
theorem build?_overwritten {chunk later : Chunk} {edits : List Edit} {gap word : UInt16} {line : Nat}
    (made : (chunk.writeWord gap line).build? edits = some later)
    (apart : ∀ edit ∈ edits, ¬ edit.Overwrites chunk.code.size ∧ ¬ edit.Overwrites (chunk.code.size + 1)) :
    (chunk.writeWord gap line).build? (edits ++ [.patchWord chunk.code.size word]) = (chunk.writeWord word line).build? edits := by
  have inside : chunk.code.size + 1 < (chunk.writeWord gap line).code.size := by simp [writeWord, write]
  have kept := (build?_survives made).code (chunk.code.size + 1) _ (Array.getElem?_eq_getElem inside)
    fun edit member => (apart edit member).2
  have within := (Array.getElem?_eq_some_iff.mp kept).1
  rw [← writeWord_patchWord chunk gap word line, build?_patchWord word made inside apart, build?_append, made, Option.bind_some,
    build?_cons, edit?_patchWord_eq_some.mpr ⟨within, rfl⟩]
  rfl

/-- An index stands for a value in a chunk: the value is at it, and a text is given out at it whenever it is added again, which
leaves the chunk as it is. -/
structure Names (chunk : Chunk) (index : Nat) (value : Value) : Prop where
  found : chunk.constants[index]? = some value
  again : ∀ s, value = .text s → chunk.addConstant value = (index, chunk)

theorem Orderly.names {chunk : Chunk} (orderly : chunk.Orderly) {index : Nat} {value : Value}
    (found : chunk.constants[index]? = some value) : chunk.Names index value := by
  refine ⟨found, ?_⟩
  rintro s rfl
  rw [Chunk.addConstant, orderly.texts.addConstant_text found]

/-- An operand that holds the index of a constant goes on naming the constant, whatever is written and added after it, as long as it
is not overwritten. -/
theorem operand_names_constant {chunk held later : Chunk} {value : Value} {index line : Nat} {op : Opcode} {edits : List Edit}
    (added : chunk.addConstant value = (index, held)) (small : index < UInt16.size)
    (made : ((held.writeOp op line).writeWord (UInt16.ofNat index) line).build? edits = some later)
    (apart : ∀ edit ∈ edits, ¬ edit.Overwrites (held.code.size + 1) ∧ ¬ edit.Overwrites (held.code.size + 2)) :
    ∃ word, later.readWord? (held.code.size + 1) = some word ∧ later.constants[word.toNat]? = some value := by
  have survives := build?_survives made
  have operand : (held.writeOp op line).code.size = held.code.size + 1 := by simp [writeOp, write]
  have written := readWord?_writeWord (held.writeOp op line) (UInt16.ofNat index) line
  rw [operand] at written
  have found : held.constants[index]? = some value := by
    cases added
    exact (addConstant_grows rfl).2
  refine ⟨_, survives.readWord? written apart, ?_⟩
  rw [UInt16.toNat_ofNat_of_lt' small]
  exact survives.constants index value found

/-- However a chunk has been built, it is orderly: each byte has its line, and no text stands in the pool twice. Overwriting a word
that lies in the code changes this word and nothing else. Adding a constant gives an index at which it stands, changes nothing that
is there, and the index stands for the constant in whatever the chunk becomes. And whatever it becomes, all that is in it stays,
but for the bytes that are overwritten. -/
theorem building_keeps_content {before : List Edit} {chunk : Chunk} (built : empty.build? before = some chunk) :
    chunk.Orderly ∧
      (∀ offset word, offset + 1 < chunk.code.size → chunk.Patched offset word (chunk.patchWord offset word)) ∧
      (∀ value index added, chunk.addConstant value = (index, added) →
        added.constants[index]? = some value ∧ Grows chunk.constants added.constants ∧
          added.code = chunk.code ∧ added.lines = chunk.lines ∧
          ∀ after later, added.build? after = some later → later.Names index value) ∧
      ∀ after later, chunk.build? after = some later → chunk.Survives after later := by
  have orderly := build?_iff_orderly.mp ⟨before, built⟩
  refine ⟨orderly, fun offset word inside => patchWord_patched inside word, ?_, fun after later made => build?_survives made⟩
  intro value index added adding
  cases adding
  have known := addConstant_grows (rfl : Bytecode.addConstant chunk.constants value = _)
  refine ⟨known.2, known.1, rfl, rfl, ?_⟩
  intro after later made
  have next : (chunk.addConstant value).2.Orderly := ⟨orderly.lined, orderly.texts.addConstant value⟩
  exact (build?_orderly next made).names ((build?_survives made).constants _ _ known.2)

/-- A jump is left open and filled in, a text is added twice and a number twice. -/
def jumpEdits : List Edit :=
  [.addConstant (.text "print"), .writeOp .jump 1, .writeWord 0xFFFF 1, .addConstant (.number 1.0), .addConstant (.number 1.0),
    .writeOp .constant 2, .writeWord 2 2, .addConstant (.text "print"), .write Opcode.pop.toByte 3, .patchWord 1 0x0104]

/-- What `jumpEdits` build. -/
def jumpChunk : Chunk :=
  ⟨#[24, 1, 4, 0, 0, 2, 4], #[.text "print", .number 1.0, .number 1.0], #[1, 1, 1, 2, 2, 2, 3]⟩

theorem jumpChunk_keeps_content :
    empty.build? jumpEdits = some jumpChunk ∧ jumpChunk.Orderly ∧ jumpChunk.Patched 1 7 (jumpChunk.patchWord 1 7) ∧
      (∀ after later, jumpChunk.build? after = some later → later.Names 0 (.text "print")) ∧
      ∀ after later, jumpChunk.build? after = some later → jumpChunk.Survives after later := by
  have built : empty.build? jumpEdits = some jumpChunk := by with_unfolding_all rfl
  obtain ⟨orderly, overwritten, added, survives⟩ := building_keeps_content built
  have again : jumpChunk.addConstant (.text "print") = (0, jumpChunk) := by with_unfolding_all rfl
  exact ⟨built, orderly, overwritten 1 7 (by decide), (added _ _ _ again).2.2.2.2, survives⟩

end Chunk

end Scriptorium.Bytecode
