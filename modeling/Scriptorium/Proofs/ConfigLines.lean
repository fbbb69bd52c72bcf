import Mathlib
import Scriptorium.Config

/-!
# The lines of a configuration

Each key of a configuration is read by itself: the last line that sets it decides its value, and where there is none the default
holds (`parse_eq_ofValues`). So lines of different keys may change places, and lines that set nothing may come and go.

A configuration is a function of the values that are given for its keys (`ofValues`). A line changes these values for one key at
most (`apply_ofValues`), and lines one after the other leave for each key the last value that they give (`foldl_apply`).
-/
namespace Scriptorium.Config

open Text (equalsIgnoringCase isBlank splitAt_eq_splitOn trim)

/-- The name of a key. -/
def Key.name : Key → String
  | .scriptDirectories => "scriptsdir"
  | .execute => "execute"
  | .debug => "debug"
  | .ignoreBracketErrors => "ignorebracketerrors"
  | .bracketNamespaces => "brackets"
  | .loader => "loader"
  | .logLevel => "loglevel"

/-- Whether a key can be set to the empty value. -/
def Key.takesEmpty : Key → Bool
  | .loader | .logLevel => false
  | _ => true

/-- A line gives a name a value: it is no comment, and it is parted at its first `=`. -/
def Says (line : List Char) (name value : String) : Prop :=
  ∃ before after, trim line = before ++ '=' :: after ∧ '=' ∉ before ∧ before.head? ≠ some '#' ∧
    name = String.ofList (trim before) ∧ value = String.ofList (trim after)

/-- A line sets a key to a value. The name of the key is in letters of any case. -/
def Sets (line : List Char) (key : Key) (value : String) : Prop :=
  ∃ name, Says line name value ∧ equalsIgnoringCase name.toList key.name.toList = true ∧
    (value ≠ "" ∨ key.takesEmpty = true)

/-- What the last of some lines that sets a key sets it to, if there is one. -/
inductive LastSet (lines : List (List Char)) (key : Key) : Option String → Prop
  | here {before after : List (List Char)} {line : List Char} {value : String} (split : lines = before ++ line :: after)
      (sets : Sets line key value) (last : ∀ other ∈ after, ∀ another, ¬ Sets other key another) : LastSet lines key (some value)
  | never (unset : ∀ line ∈ lines, ∀ value, ¬ Sets line key value) : LastSet lines key none

/-- A line that is blank or a comment, has no `=`, or has a name that is no key. -/
def Idle (line : List Char) : Prop :=
  (∀ c ∈ line, isBlank c = true) ∨ (trim line).head? = some '#' ∨ '=' ∉ line ∨
    ∃ name value, Says line name value ∧ ∀ key : Key, equalsIgnoringCase name.toList key.name.toList = false

/-- Two lines give no name in common a value. -/
def Apart (a b : List Char) : Prop :=
  ∀ name value other another, Says a name value → Says b other another → equalsIgnoringCase name.toList other.toList = false

/-- The items between commas, trimmed, without the empty ones. -/
def listed (value : String) : List String :=
  (((value.toList.splitOn ',').map trim).filter (· ≠ [])).map String.ofList

/-- The truth value of a word in letters of any case, and of every other word the given one. -/
def truthOf (otherwise : Bool) (value : String) : Bool :=
  if ["true", "yes", "on", "1"].any fun word => equalsIgnoringCase value.toList word.toList then true
  else if ["false", "no", "off", "0"].any fun word => equalsIgnoringCase value.toList word.toList then false
  else otherwise

/-- The configuration in which some keys are given values. -/
def ofValues (given : Key → Option String) : Config where
  scriptDirectories := (given .scriptDirectories).elim ["scripts"] listed
  execute := (given .execute).elim true (truthOf true)
  debug := (given .debug).elim false (truthOf false)
  ignoreBracketErrors := (given .ignoreBracketErrors).elim [] listed
  bracketNamespaces := (given .bracketNamespaces).elim ["item", "liquid", "ore"] listed
  loader := (given .loader).getD "tweaker"
  logLevel := (given .logLevel).getD "info"

/-- A text with an `=` is parted at the first. -/
theorem split_at_first {chars : List Char} (among : '=' ∈ chars) :
    chars = chars.takeWhile (· ≠ '=') ++ '=' :: (chars.dropWhile (· ≠ '=')).drop 1 := by
  have some : chars.dropWhile (· ≠ '=') ≠ [] := by
    intro none
    simpa using List.dropWhile_eq_nil_iff.mp none '=' among
  obtain ⟨c, rest, same⟩ := List.exists_cons_of_ne_nil some
  have first := List.head?_dropWhile_not (· ≠ '=') chars
  rw [same, List.head?_cons] at first
  obtain rfl : c = '=' := by simpa using first
  conv_lhs => rw [← List.takeWhile_append_dropWhile (p := (· ≠ '=')) (l := chars), same]
  rw [same, List.drop_one, List.tail_cons]

/-- The parts of a text around its first `=`. -/
theorem parts_at_first {before after : List Char} (first : '=' ∉ before) :
    (before ++ '=' :: after).takeWhile (· ≠ '=') = before ∧
      ((before ++ '=' :: after).dropWhile (· ≠ '=')).drop 1 = after := by
  have other : ∀ c ∈ before, decide (c ≠ '=') = true := by
    rintro c among
    exact decide_eq_true fun same => first (same ▸ among)
  rw [List.takeWhile_append_of_pos other, List.dropWhile_append_of_pos other]
  simp

private theorem ofLine?_eq_some_iff {line : List Char} {setting : Setting} :
    Setting.ofLine? line = some setting ↔ Says line setting.name setting.value := by
  obtain ⟨name, value⟩ := setting
  unfold Setting.ofLine? Says
  constructor
  · intro read
    split at read
    · cases read
    · rename_i c rest same
      simp only at read
      split at read
      · cases read
      · rename_i shape
        obtain ⟨noComment, assigned⟩ := not_or.mp shape
        rw [not_not] at assigned
        obtain ⟨rfl, rfl⟩ := Setting.mk.inj (Option.some.inj read)
        have split := split_at_first assigned
        refine ⟨_, _, same.trans split, fun among => ?_, fun comment => noComment ?_, rfl, rfl⟩
        · simpa using List.mem_takeWhile_imp among
        · have begins : (c :: rest).head? = some '#' := by
            rw [split, List.head?_append, comment]
            rfl
          simpa using begins
  · rintro ⟨before, after, same, first, noComment, rfl, rfl⟩
    obtain ⟨front, back⟩ := @parts_at_first before after first
    rw [same]
    split
    · rename_i none
      simp at none
    · rename_i c rest whole
      simp only
      rw [← whole, front, back, if_neg]
      rintro (rfl | unassigned)
      · cases before with
        | nil => simp at whole
        | cons d more =>
          obtain ⟨rfl, -⟩ := List.cons.inj whole
          exact noComment rfl
      · exact unassigned (by simp)

private theorem lower_eq_iff {a b : String} :
    a.map Char.toLower = b.map Char.toLower ↔ equalsIgnoringCase a.toList b.toList = true := by
  rw [equalsIgnoringCase, beq_iff_eq, ← String.toList_inj, String.toList_map, String.toList_map]

private theorem lower_name (key : Key) : key.name.map Char.toLower = key.name := by
  rw [← String.toList_inj, String.toList_map]
  cases key <;> decide

private theorem ofName?_eq_some_iff {name : String} {key : Key} :
    Key.ofName? name = some key ↔ equalsIgnoringCase name.toList key.name.toList = true := by
  rw [← lower_eq_iff, lower_name, Key.ofName?]
  constructor
  · intro found
    split at found <;> cases found <;> assumption
  · intro same
    rw [same]
    cases key <;> rfl

private theorem items_eq_listed (value : String) : items value = listed value := by
  rw [items, listed, splitAt_eq_splitOn]
  induction value.toList.splitOn ',' with
  | nil => rfl
  | cons item rest ih =>
    rw [List.map_cons, List.map_cons, List.filter_cons, List.filter_cons, ih]
    have empty : String.ofList (trim item) = "" ↔ trim item = [] := by
      rw [← String.toList_inj, String.toList_ofList]
      rfl
    by_cases none : trim item = []
    · simp [none]
    · simp [none, empty]

private theorem truth_eq_truthOf (setting : Setting) (otherwise : Bool) :
    (setting.truth otherwise).1 = truthOf otherwise setting.value := by
  have same : ∀ word : String, word.toList.map Char.toLower = word.toList →
      equalsIgnoringCase setting.value.toList word.toList = (setting.value.map Char.toLower == word) := by
    intro word own
    rw [equalsIgnoringCase, own, Bool.eq_iff_iff, beq_iff_eq, beq_iff_eq, ← String.toList_inj, String.toList_map]
  rw [truthOf, Setting.truth, truth?]
  simp only [List.any_cons, List.any_nil, Bool.or_false, same "true" (by decide), same "yes" (by decide), same "on" (by decide),
    same "1" (by decide), same "false" (by decide), same "no" (by decide), same "off" (by decide), same "0" (by decide)]
  generalize setting.value.map Char.toLower = word
  split <;> rename_i found <;> split at found <;> simp_all

/-- What a setting sets a key to, if it does. -/
def Setting.valueOf? (setting : Setting) (key : Key) : Option String :=
  if Key.ofName? setting.name = some key ∧ (setting.value ≠ "" ∨ key.takesEmpty = true) then some setting.value else none

/-- What a line sets a key to, if it does. -/
def valueAt? (key : Key) (line : List Char) : Option String := (Setting.ofLine? line).bind (·.valueOf? key)

private theorem valueAt?_eq_some_iff {key : Key} {line : List Char} {value : String} :
    valueAt? key line = some value ↔ Sets line key value := by
  simp only [valueAt?, Option.bind_eq_some_iff, Setting.valueOf?, Option.ite_none_right_eq_some, ofName?_eq_some_iff]
  constructor
  · rintro ⟨setting, read, ⟨named, filled⟩, ⟨⟩⟩
    exact ⟨setting.name, ofLine?_eq_some_iff.mp read, named, filled⟩
  · rintro ⟨name, told, named, filled⟩
    exact ⟨⟨name, value⟩, ofLine?_eq_some_iff.mpr told, ⟨named, filled⟩, rfl⟩

private theorem valueAt?_eq_none_iff {key : Key} {line : List Char} : valueAt? key line = none ↔ ∀ value, ¬ Sets line key value := by
  simp only [← valueAt?_eq_some_iff, Option.eq_none_iff_forall_ne_some]

/-- A line gives a value for one key at most, and leaves the others as they were. -/
theorem apply_ofValues (given : Key → Option String) (setting : Setting) :
    ((ofValues given).apply setting).1 = ofValues fun key => (setting.valueOf? key).or (given key) := by
  have value : ∀ key, setting.valueOf? key =
      if Key.ofName? setting.name = some key ∧ (setting.value ≠ "" ∨ key.takesEmpty = true) then some setting.value else none :=
    fun key => rfl
  unfold apply
  cases named : Key.ofName? setting.name with
  | none => simp [value, named]
  | some key =>
    cases key with
    | scriptDirectories | ignoreBracketErrors | bracketNamespaces =>
      simp [ofValues, value, named, Key.takesEmpty, items_eq_listed]
    | execute => 
      have truth := truth_eq_truthOf setting default.execute
      simp [ofValues, value, named, Key.takesEmpty, truth]
      rfl
    | debug =>
      have truth := truth_eq_truthOf setting default.debug
      simp [ofValues, value, named, Key.takesEmpty, truth]
      rfl
    | loader | logLevel =>
      by_cases empty : setting.value = ""
      · simp [ofValues, value, named, Key.takesEmpty, empty]
      · simp [ofValues, value, named, Key.takesEmpty, empty]

/-- Settings one after the other leave for each key the last value that they give. -/
theorem foldl_apply (settings : List Setting) (given : Key → Option String) (events : List LogEvent) :
    (settings.foldl (fun (config, events) setting =>
      let (config, more) := config.apply setting
      (config, events ++ more)) (ofValues given, events)).1 =
        ofValues fun key => (settings.filterMap (·.valueOf? key)).getLast?.or (given key) := by
  induction settings generalizing given events with
  | nil => rfl
  | cons setting settings ih =>
    rw [List.foldl_cons]
    simp only [apply_ofValues]
    rw [ih]
    congr 1
    funext key
    cases here : setting.valueOf? key with
    | none => simp only [List.filterMap_cons, here, Option.none_or]
    | some value =>
      simp only [List.filterMap_cons, here, List.getLast?_cons]
      cases (settings.filterMap (·.valueOf? key)).getLast? <;> rfl

/-- The lines of a text, which line feeds part. -/
def linesOf (text : String) : List (List Char) := text.toList.splitOn '\n'

/-- What the lines of a text set a key to. -/
def valueIn? (lines : List (List Char)) (key : Key) : Option String := (lines.filterMap (valueAt? key)).getLast?

private theorem ofLine?_nil : Setting.ofLine? [] = none := rfl

/-- The last line feed begins no line that says anything. -/
theorem filterMap_lines (text : List Char) :
    (Text.lines text).filterMap Setting.ofLine? = (text.splitOn '\n').filterMap Setting.ofLine? := by
  rw [← splitAt_eq_splitOn, Text.lines]
  split
  · rename_i last
    obtain ⟨lines, same⟩ := List.getLast?_eq_some_iff.mp last
    rw [same, List.dropLast_concat, List.filterMap_append, List.filterMap_cons_none ofLine?_nil, List.filterMap_nil,
      List.append_nil]
  · rfl

theorem parse_eq (text : String) : (parse text).1 = ofValues (valueIn? (linesOf text)) := by
  have initial : default = ofValues fun _ => none := rfl
  rw [parse, filterMap_lines, initial, foldl_apply]
  congr 1
  funext key
  rw [List.filterMap_filterMap, Option.or_none]
  rfl

/-- A line after the others that does not set a key changes nothing for it. -/
theorem LastSet.concat {lines : List (List Char)} {key : Key} {value? : Option String} {line : List Char}
    (last : LastSet lines key value?) (idle : ∀ value, ¬ Sets line key value) : LastSet (lines ++ [line]) key value? := by
  cases last with
  | @here before after first value split sets last =>
    refine .here (show lines ++ [line] = before ++ first :: (after ++ [line]) by rw [split]; simp) sets ?_
    exact List.forall_mem_append.mpr ⟨last, List.forall_mem_singleton.mpr idle⟩
  | never unset => exact .never (List.forall_mem_append.mpr ⟨unset, List.forall_mem_singleton.mpr idle⟩)

private theorem lastSet_valueIn? (lines : List (List Char)) (key : Key) : LastSet lines key (valueIn? lines key) := by
  induction lines using List.reverseRecOn with
  | nil => exact .never (by simp)
  | append_singleton lines line ih =>
    rw [valueIn?, List.filterMap_append]
    cases here : valueAt? key line with
    | some value =>
      rw [List.filterMap_cons_some here, List.filterMap_nil, List.getLast?_concat]
      exact .here rfl (valueAt?_eq_some_iff.mp here) (by simp)
    | none =>
      rw [List.filterMap_cons_none here, List.filterMap_nil, List.append_nil]
      exact ih.concat (valueAt?_eq_none_iff.mp here)

/-- The last value that lines give a key is what the last line that sets it sets it to. -/
theorem lastSet_iff {lines : List (List Char)} {key : Key} {value? : Option String} :
    LastSet lines key value? ↔ valueIn? lines key = value? := by
  constructor
  · intro last
    cases last with
    | @here before after line value split sets last =>
      have others : ∀ other ∈ after, valueAt? key other = none :=
        fun other among => valueAt?_eq_none_iff.mpr (last other among)
      rw [valueIn?, split, List.filterMap_append, List.filterMap_cons_some (valueAt?_eq_some_iff.mpr sets),
        List.filterMap_eq_nil_iff.mpr others, List.getLast?_concat]
    | never unset =>
      rw [valueIn?, List.filterMap_eq_nil_iff.mpr fun line among => valueAt?_eq_none_iff.mpr (unset line among)]
      rfl
  · rintro rfl
    exact lastSet_valueIn? lines key

private theorem trim_blanks {line : List Char} (blanks : ∀ c ∈ line, isBlank c = true) : trim line = [] := by
  rw [trim, Text.trimStart, Text.trimStart, List.dropWhile_eq_nil_iff.mpr blanks]
  rfl

private theorem mem_of_mem_trim {line : List Char} {c : Char} (among : c ∈ trim line) : c ∈ line := by
  have front := (List.dropWhile_sublist isBlank).mem (List.mem_reverse.mp among)
  exact (List.dropWhile_sublist isBlank).mem (List.mem_reverse.mp front)

theorem Says.unique {line : List Char} {name value other another : String} (told : Says line name value)
    (toldToo : Says line other another) : name = other ∧ value = another := by
  have first : Setting.ofLine? line = some ⟨name, value⟩ := ofLine?_eq_some_iff.mpr told
  have second : Setting.ofLine? line = some ⟨other, another⟩ := ofLine?_eq_some_iff.mpr toldToo
  obtain ⟨rfl, rfl⟩ := Setting.mk.inj (Option.some.inj (first.symm.trans second))
  exact ⟨rfl, rfl⟩

/-- A line that says nothing of a key sets none. -/
theorem Idle.valueAt? {line : List Char} (idle : Idle line) (key : Key) : valueAt? key line = none := by
  rw [valueAt?_eq_none_iff]
  rintro value ⟨name, told, named, -⟩
  have ⟨before, after, split, first, noComment, _, _⟩ := told
  rcases idle with blanks | comment | unassigned | ⟨other, another, toldToo, unknown⟩
  · rw [trim_blanks blanks] at split
    simp at split
  · rw [split, List.head?_append, Option.or_eq_some_iff] at comment
    rcases comment with comment | ⟨-, comment⟩
    · exact noComment comment
    · cases comment
  · exact unassigned (mem_of_mem_trim (split ▸ by simp))
  · obtain ⟨rfl, rfl⟩ := told.unique toldToo
    rw [unknown key] at named
    cases named

/-- Of two lines that give no name in common a value, one at least does not set a key. -/
theorem Apart.valueAt? {a b : List Char} (apart : Apart a b) (key : Key) :
    Config.valueAt? key a = none ∨ Config.valueAt? key b = none := by
  by_contra both
  obtain ⟨first, second⟩ := not_or.mp both
  obtain ⟨value, set⟩ := Option.ne_none_iff_exists'.mp first
  obtain ⟨another, setToo⟩ := Option.ne_none_iff_exists'.mp second
  obtain ⟨name, told, named, -⟩ := valueAt?_eq_some_iff.mp set
  obtain ⟨other, toldToo, namedToo, -⟩ := valueAt?_eq_some_iff.mp setToo
  have different := apart name value other another told toldToo
  rw [equalsIgnoringCase, beq_iff_eq] at named namedToo
  rw [equalsIgnoringCase, named, namedToo, beq_self_eq_true] at different
  cases different

private theorem valueIn?_swap {a b : List Char} (apart : Apart a b) (before after : List (List Char)) :
    valueIn? (before ++ b :: a :: after) = valueIn? (before ++ a :: b :: after) := by
  funext key
  have pair : [b, a].filterMap (valueAt? key) = [a, b].filterMap (valueAt? key) := by
    rcases apart.valueAt? key with none | none
    · simp [List.filterMap_cons, none]
    · simp [List.filterMap_cons, none]
  rw [valueIn?, valueIn?, show before ++ b :: a :: after = before ++ ([b, a] ++ after) from rfl,
    show before ++ a :: b :: after = before ++ ([a, b] ++ after) from rfl]
  simp only [List.filterMap_append, pair]

private theorem valueIn?_insert {idle : List Char} (idles : Idle idle) (before after : List (List Char)) :
    valueIn? (before ++ idle :: after) = valueIn? (before ++ after) := by
  funext key
  rw [valueIn?, valueIn?, List.filterMap_append, List.filterMap_cons_none (idles.valueAt? key), ← List.filterMap_append]

/-- The value of each key is what the last line that sets it sets it to, and its default where no line does. Neighbouring lines
that give values to different names may change places, and lines that say nothing of a key may come and go, anywhere. -/
theorem parse_eq_ofValues (text : String) :
    (∃ given : Key → Option String, (∀ key value?, LastSet (linesOf text) key value? ↔ given key = value?) ∧
      (parse text).1 = ofValues given) ∧
    (∀ (other : String) (before after : List (List Char)) (a b : List Char), linesOf text = before ++ a :: b :: after →
      linesOf other = before ++ b :: a :: after → Apart a b → (parse other).1 = (parse text).1) ∧
    ∀ (other : String) (before after : List (List Char)) (idle : List Char), linesOf text = before ++ after →
      linesOf other = before ++ idle :: after → Idle idle → (parse other).1 = (parse text).1 := by
  refine ⟨⟨valueIn? (linesOf text), fun key value? => lastSet_iff, parse_eq text⟩, ?_, ?_⟩
  · intro other before after a b lines exchanged apart
    rw [parse_eq, parse_eq, lines, exchanged, valueIn?_swap apart]
  · intro other before after idle lines more idles
    rw [parse_eq, parse_eq, lines, more, valueIn?_insert idles]

/-- A configuration with a key in capitals, a key that is set twice, an unusable truth value and an empty loader. -/
def repeatedText : String := "execute = no\nDEBUG = on\r\nbrackets = a,, b \nExecute=maybe\nloader ="

/-- The configuration with two of its lines in the other order. -/
def exchangedText : String := "DEBUG = on\r\nexecute = no\nbrackets = a,, b \nExecute=maybe\nloader ="

/-- The configuration with a comment. -/
def commentedText : String := "execute = no\nDEBUG = on\r\nbrackets = a,, b \n # debug = off\nExecute=maybe\nloader ="

theorem repeatedText_eq_ofValues :
    (parse repeatedText).1 =
        { default with execute := true, debug := true, bracketNamespaces := ["a", "b"] } ∧
      (parse exchangedText).1 = (parse repeatedText).1 ∧ (parse commentedText).1 = (parse repeatedText).1 := by
  obtain ⟨-, swap, insert⟩ := parse_eq_ofValues repeatedText
  refine ⟨by decide +kernel, swap exchangedText [] ["brackets = a,, b ".toList, "Execute=maybe".toList, "loader =".toList]
    "execute = no".toList "DEBUG = on\r".toList (by decide +kernel) (by decide +kernel) ?_,
    insert commentedText ["execute = no".toList, "DEBUG = on\r".toList, "brackets = a,, b ".toList]
      ["Execute=maybe".toList, "loader =".toList] " # debug = off".toList (by decide +kernel) (by decide +kernel)
      (.inr (.inl (by decide +kernel)))⟩
  intro name value other another told toldToo
  have first : Setting.ofLine? "execute = no".toList = some ⟨"execute", "no"⟩ := by decide +kernel
  have second : Setting.ofLine? "DEBUG = on\r".toList = some ⟨"DEBUG", "on"⟩ := by decide +kernel
  obtain ⟨rfl, -⟩ := told.unique (ofLine?_eq_some_iff.mp first)
  obtain ⟨rfl, -⟩ := toldToo.unique (ofLine?_eq_some_iff.mp second)
  decide +kernel

end Scriptorium.Config
