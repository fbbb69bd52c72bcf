import Scriptorium.Proofs.DirectiveLines
import Scriptorium.Proofs.Spellings

/-!
# The grammar of directives

A scan of a text finds the lines that spell a directive: between blanks a hash and a name and, after spaces and tabs, one
word (`DirectiveLine`). It fails at the first line that spells `#loader` without a word; otherwise it tells which of the other
names are spelled somewhere, and the word of the last `#loader` (`scan_iff_directives`). Lines that spell none of the four names
make no difference, neither to what is told nor to what is reported.
-/
namespace Scriptorium.Build

open Text (Bytes isBlank isWordChar not_mem_of_mem_splitAt splitAt_eq_splitOn trim trimStart)

/-- What stands on a line between the blanks: a hash and a name and, after spaces and tabs, one word. -/
inductive Spelled : List Char → Directive → Prop
  | name {name : List Char} (named : name ≠ []) (ofName : ∀ c ∈ name, isWordChar c = true) :
      Spelled ('#' :: name) ⟨String.ofList name, none⟩
  | argument {name gap word : List Char} (named : name ≠ []) (ofName : ∀ c ∈ name, isWordChar c = true) (apart : gap ≠ [])
      (ofGap : ∀ c ∈ gap, c = ' ' ∨ c = '\t') (one : word ≠ []) (ofWord : ∀ c ∈ word, isBlank c = false) :
      Spelled ('#' :: (name ++ (gap ++ word))) ⟨String.ofList name, some (String.ofList word)⟩

/-- A line spells a directive between blanks. -/
def DirectiveLine (line : List Char) (directive : Directive) : Prop :=
  ∃ before body after, line = before ++ body ++ after ∧ (∀ c ∈ before, isBlank c = true) ∧ (∀ c ∈ after, isBlank c = true) ∧
    Spelled body directive

/-- A text has a line of some number: no line feed stands in it, one stands on either side unless the text begins or ends there,
and the number counts those before it, from one. -/
def LineOf (text : List Char) (number : Nat) (line : List Char) : Prop :=
  ∃ before after, text = before ++ line ++ after ∧ '\n' ∉ line ∧ (before = [] ∨ before.getLast? = some '\n') ∧
    (after = [] ∨ after.head? = some '\n') ∧ number = before.count '\n' + 1

/-- A text spells a directive on the line of some number. -/
def DirectiveAt (text : String) (number : Nat) (directive : Directive) : Prop :=
  ∃ line, LineOf text.toList number line ∧ DirectiveLine line directive

/-- The names of the directives that there are. -/
def Directive.Known (directive : Directive) : Prop :=
  directive.name = "debug" ∨ directive.name = "ignoreBracketErrors" ∨ directive.name = "norun" ∨ directive.name = "loader"

/-- The one directive that is refused: `#loader` without a word. -/
def Directive.bareLoader : Directive := ⟨"loader", none⟩

/-- What is told of directives on numbered lines: which names there are, and the word of the last `#loader`. -/
structure Directives.Tell (directives : Directives) (spelled : Nat → Directive → Prop) : Prop where
  debug : directives.debug = true ↔ ∃ number argument, spelled number ⟨"debug", argument⟩
  ignoreBracketErrors : directives.ignoreBracketErrors = true ↔
    ∃ number argument, spelled number ⟨"ignoreBracketErrors", argument⟩
  norun : directives.norun = true ↔ ∃ number argument, spelled number ⟨"norun", argument⟩
  loader (word : String) : directives.loader = some word ↔ ∃ number, spelled number ⟨"loader", some word⟩ ∧
    ∀ later argument, number < later → ¬ spelled later ⟨"loader", argument⟩

private theorem isGap_iff {c : Char} : isGap c = true ↔ c = ' ' ∨ c = '\t' := by
  simp [isGap]

private theorem isBlank_of_isGap {c : Char} (gap : isGap c = true) : isBlank c = true := by
  rcases isGap_iff.mp gap with rfl | rfl <;> rfl

private theorem isWordChar_of_isGap {c : Char} (gap : isGap c = true) : isWordChar c = false := by
  rcases isGap_iff.mp gap with rfl | rfl <;> rfl

/-- A line is blanks, what is left of it by trimming, and blanks. -/
theorem exists_trim (line : List Char) :
    ∃ before after, line = before ++ trim line ++ after ∧ (∀ c ∈ before, isBlank c = true) ∧ (∀ c ∈ after, isBlank c = true) := by
  refine ⟨line.takeWhile isBlank, ((trimStart line).reverse.takeWhile isBlank).reverse, ?_, fun c => List.mem_takeWhile_imp, ?_⟩
  · rw [trim, trimStart, List.append_assoc, ← List.reverse_append, List.takeWhile_append_dropWhile, List.reverse_reverse,
      trimStart, List.takeWhile_append_dropWhile]
  · intro c among
    exact List.mem_takeWhile_imp (List.mem_reverse.mp among)

private theorem trimStart_solid {before s : List Char} (blanks : ∀ c ∈ before, isBlank c = true)
    (solid : ∀ c ∈ s.head?, isBlank c = false) : trimStart (before ++ s) = s := by
  rw [trimStart, List.dropWhile_append_of_pos blanks]
  cases s with
  | nil => rfl
  | cons c s => rw [List.dropWhile_cons_of_neg (by simp [solid c rfl])]

/-- What begins and ends with no blank is left by trimming. -/
theorem trim_solid {before body after : List Char} (blanks : ∀ c ∈ before, isBlank c = true)
    (blanksAfter : ∀ c ∈ after, isBlank c = true) (begins : ∀ c ∈ body.head?, isBlank c = false)
    (ends : ∀ c ∈ body.getLast?, isBlank c = false) (some : body ≠ []) :
    trim (before ++ body ++ after) = body := by
  obtain ⟨c, rest, rfl⟩ := List.exists_cons_of_ne_nil some
  have front : trimStart (before ++ c :: rest ++ after) = c :: rest ++ after := by
    rw [List.append_assoc]
    exact trimStart_solid blanks (by simpa using begins)
  rw [trim, front, List.reverse_append, trimStart_solid (by simpa using blanksAfter) (by rwa [List.head?_reverse]),
    List.reverse_reverse]

theorem Spelled.begins {body : List Char} {directive : Directive} (spelled : Spelled body directive) :
    ∃ rest, body = '#' :: rest := by
  cases spelled <;> exact ⟨_, rfl⟩

theorem Spelled.ends {body : List Char} {directive : Directive} (spelled : Spelled body directive) :
    ∀ c ∈ body.getLast?, isBlank c = false := by
  intro c last
  cases spelled with
  | name named ofName =>
    rw [List.getLast?_cons_of_ne_nil named] at last
    exact (Script.isWordChar_solid (ofName c (List.mem_of_getLast? last))).1
  | @argument name gap word named ofName apart ofGap one ofWord =>
    rw [List.getLast?_cons_of_ne_nil (by simp [named]), ← List.append_assoc, List.getLast?_append_of_ne_nil _ one] at last
    exact ofWord c (List.mem_of_getLast? last)

/-! ## Reading a line -/

private theorem argumentOf?_gap {gap : List Char} (ofGap : ∀ c ∈ gap, isGap c = true) : argumentOf? gap = some none := by
  have dropped : gap.dropWhile isGap = [] := List.dropWhile_eq_nil_iff.mpr ofGap
  simp [argumentOf?, dropped]

private theorem argumentOf?_word {gap word after : List Char} (apart : gap ≠ []) (ofGap : ∀ c ∈ gap, isGap c = true)
    (one : word ≠ []) (ofWord : ∀ c ∈ word, isBlank c = false) (ofAfter : ∀ c ∈ after, isGap c = true) :
    argumentOf? (gap ++ (word ++ after)) = some (some (String.ofList word)) := by
  obtain ⟨c, more, rfl⟩ := List.exists_cons_of_ne_nil apart
  obtain ⟨d, rest, rfl⟩ := List.exists_cons_of_ne_nil one
  have solid : isGap d = false := by
    by_contra gap
    have blank := isBlank_of_isGap (Bool.eq_true_of_not_eq_false gap)
    rw [ofWord d List.mem_cons_self] at blank
    cases blank
  have dropped : (c :: more ++ (d :: rest ++ after)).dropWhile isGap = d :: rest ++ after :=
    (Script.span_ends ofGap (by simpa using solid)).2
  have stops : ∀ e ∈ after.head?, (!isBlank e) = false := by
    intro e first
    rw [isBlank_of_isGap (ofAfter e (List.mem_of_head? first)), Bool.not_true]
  have solidWord : ∀ e ∈ d :: rest, (!isBlank e) = true := by
    intro e among
    rw [ofWord e among, Bool.not_false]
  obtain ⟨taken, left⟩ := Script.span_ends solidWord stops
  have none : after.dropWhile isGap = [] := List.dropWhile_eq_nil_iff.mpr ofAfter
  have first : isGap c = true := ofGap c List.mem_cons_self
  unfold argumentOf?
  rw [dropped, taken, left]
  simp [first, none]

private theorem argumentOf?_cases {s : List Char} {argument : Option String} (found : argumentOf? s = some argument) :
    (argument = none ∧ ∀ c ∈ s, isGap c = true) ∨
      ∃ gap word after, s = gap ++ (word ++ after) ∧ gap ≠ [] ∧ (∀ c ∈ gap, isGap c = true) ∧ word ≠ [] ∧
        (∀ c ∈ word, isBlank c = false) ∧ (∀ c ∈ after, isGap c = true) ∧ argument = some (String.ofList word) := by
  unfold argumentOf? at found
  simp only at found
  split at found
  · rename_i all
    obtain rfl := Option.some.inj found
    exact .inl ⟨rfl, by simpa using all⟩
  · split at found
    · rename_i all shape
      obtain rfl := Option.some.inj found
      simp only [Bool.and_eq_true, Bool.not_eq_true', List.isEmpty_eq_false_iff, List.isEmpty_iff] at shape
      obtain ⟨⟨first, some⟩, last⟩ := shape
      refine .inr ⟨s.takeWhile isGap, (s.dropWhile isGap).takeWhile (!isBlank ·), (s.dropWhile isGap).dropWhile (!isBlank ·),
        ?_, ?_, fun c => List.mem_takeWhile_imp, some, ?_, List.dropWhile_eq_nil_iff.mp last, rfl⟩
      · rw [List.takeWhile_append_dropWhile, List.takeWhile_append_dropWhile]
      · cases s with
        | nil => simp at first
        | cons c s =>
          have gap : isGap c = true := by simpa using first
          simp [gap]
      · intro c among
        simpa using List.mem_takeWhile_imp among
    · cases found

private theorem directive?_eq_some_iff {s : List Char} {directive : Directive} :
    directive? s = some directive ↔ ∃ body gap, s = body ++ gap ∧ (∀ c ∈ gap, isGap c = true) ∧ Spelled body directive := by
  constructor
  · intro found
    unfold directive? at found
    split at found
    · rename_i rest
      simp only at found
      split at found
      · cases found
      · rename_i named
        rw [List.isEmpty_iff] at named
        obtain ⟨argument, read, rfl⟩ := Option.map_eq_some_iff.mp found
        have split : rest = rest.takeWhile isWordChar ++ rest.dropWhile isWordChar := List.takeWhile_append_dropWhile.symm
        have ofName : ∀ c ∈ rest.takeWhile isWordChar, isWordChar c = true := fun c => List.mem_takeWhile_imp
        rcases argumentOf?_cases read with ⟨rfl, all⟩ | ⟨gap, word, after, same, apart, ofGap, one, ofWord, ofAfter, rfl⟩
        · exact ⟨_, _, congrArg ('#' :: ·) split, all, .name named ofName⟩
        · refine ⟨_, after, ?_, ofAfter, .argument named ofName apart (fun c among => isGap_iff.mp (ofGap c among)) one ofWord⟩
          conv_lhs => rw [split, same]
          simp
    · cases found
  · rintro ⟨body, gap, rfl, ofGap, spelled⟩
    have stops : ∀ more : List Char, (∀ c ∈ more.head?, isGap c = true) → ∀ c ∈ more.head?, isWordChar c = false :=
      fun more first c head => isWordChar_of_isGap (first c head)
    cases spelled with
    | @name name named ofName =>
      obtain ⟨taken, left⟩ := Script.span_ends ofName (stops gap fun c head => ofGap c (List.mem_of_head? head))
      rw [List.cons_append, directive?]
      simp [taken, left, named, argumentOf?_gap ofGap]
    | @argument name between word named ofName apart ofBetween one ofWord =>
      have ofBetween : ∀ c ∈ between, isGap c = true := fun c among => isGap_iff.mpr (ofBetween c among)
      have first : ∀ c ∈ (between ++ (word ++ gap)).head?, isGap c = true := by
        obtain ⟨c, more, rfl⟩ := List.exists_cons_of_ne_nil apart
        simpa using ofBetween c List.mem_cons_self
      obtain ⟨taken, left⟩ := Script.span_ends ofName (stops _ first)
      have whole : '#' :: (name ++ (between ++ word)) ++ gap = '#' :: (name ++ (between ++ (word ++ gap))) := by simp
      rw [whole, directive?]
      simp [taken, left, named, argumentOf?_word apart ofBetween one ofWord ofGap]

/-- The directive that is read from a line is the one that it spells. -/
theorem directive?_trim {line : List Char} {directive : Directive} :
    directive? (trim line) = some directive ↔ DirectiveLine line directive := by
  constructor
  · intro found
    obtain ⟨body, gap, same, ofGap, spelled⟩ := directive?_eq_some_iff.mp found
    obtain ⟨before, after, whole, blanks, blanksAfter⟩ := exists_trim line
    refine ⟨before, body, gap ++ after, ?_, blanks, ?_, spelled⟩
    · rw [whole, same]
      simp
    · intro c among
      rcases List.mem_append.mp among with inGap | later
      · exact isBlank_of_isGap (ofGap c inGap)
      · exact blanksAfter c later
  · rintro ⟨before, body, after, rfl, blanks, blanksAfter, spelled⟩
    obtain ⟨rest, same⟩ := spelled.begins
    have begins : ∀ c ∈ body.head?, isBlank c = false := by
      intro c first
      rw [same, List.head?_cons, Option.mem_some_iff] at first
      subst first
      rfl
    rw [trim_solid blanks blanksAfter begins spelled.ends (by simp [same])]
    exact directive?_eq_some_iff.mpr ⟨body, [], by simp, by simp, spelled⟩

private theorem length_splitOn (s : List Char) : (s.splitOn '\n').length = s.count '\n' + 1 := by
  induction s with
  | nil => rfl
  | cons c s ih =>
    rw [List.splitOn_cons_eq_if_modifyHead]
    by_cases feed : c = '\n' <;> simp [feed, ih]

/-- The part of a text from the beginning of a line on is split by itself. -/
theorem splitOn_append {before : List Char} (s : List Char) (ends : before = [] ∨ before.getLast? = some '\n') :
    ∃ parts, parts.length = before.count '\n' ∧ (before ++ s).splitOn '\n' = parts ++ s.splitOn '\n' := by
  rcases ends with rfl | last
  · exact ⟨[], rfl, rfl⟩
  · obtain ⟨front, rfl⟩ := List.getLast?_eq_some_iff.mp last
    refine ⟨front.splitOn '\n', by simp [length_splitOn], ?_⟩
    rw [List.append_assoc]
    exact List.splitOn_append_cons_self front s

private theorem splitOn_line {line after : List Char} (noFeed : '\n' ∉ line) (ends : after = [] ∨ after.head? = some '\n') :
    ((line ++ after).splitOn '\n')[0]? = some line := by
  rcases ends with rfl | first
  · rw [List.append_nil, List.splitOn_eq_singleton noFeed]
    rfl
  · obtain ⟨tail, rfl⟩ := List.head?_eq_some_iff.mp first
    rw [List.splitOn_append_cons_self_of_not_mem noFeed]
    rfl

private theorem count_fed {lines : List (List Char)} (clear : ∀ line ∈ lines, '\n' ∉ line) :
    (fed lines).count '\n' = lines.length := by
  induction lines with
  | nil => rfl
  | cons line lines ih =>
    have here : line.count '\n' = 0 := List.count_eq_zero.mpr (clear line List.mem_cons_self)
    have later := ih fun other among => clear other (List.mem_cons_of_mem _ among)
    rw [fed] at later
    rw [fed, List.flatMap_cons, List.count_append, List.count_append, here, later, List.length_cons]
    simp [Nat.add_comm]

/-- A line among lines stands between those before it, each with its line feed, and those after it. -/
theorem intercalate_split (parts more : List (List Char)) (line : List Char) :
    ∃ after, ['\n'].intercalate (parts ++ line :: more) = fed parts ++ line ++ after ∧
      (after = [] ∨ after.head? = some '\n') := by
  induction parts with
  | nil =>
    cases more with
    | nil => exact ⟨[], by simp [fed], .inl rfl⟩
    | cons next more => exact ⟨'\n' :: ['\n'].intercalate (next :: more), by simp [fed, List.intercalate_cons_cons], .inr rfl⟩
  | cons part parts ih =>
    obtain ⟨after, split, ends⟩ := ih
    refine ⟨after, ?_, ends⟩
    obtain ⟨next, others, same⟩ := List.exists_cons_of_ne_nil (show parts ++ line :: more ≠ [] by simp)
    rw [List.cons_append, same, List.intercalate_cons_cons, ← same, split]
    simp [fed]

/-- The lines of a text are what line feeds part. -/
theorem lineOf_iff {text line : List Char} {number : Nat} :
    LineOf text (number + 1) line ↔ (Text.splitAt '\n' text)[number]? = some line := by
  constructor
  · rintro ⟨before, after, rfl, noFeed, begins, ends, count⟩
    obtain ⟨parts, length, split⟩ := splitOn_append (line ++ after) begins
    rw [splitAt_eq_splitOn, List.append_assoc, split, List.getElem?_append_right (by omega), length]
    have same : number - before.count '\n' = 0 := by omega
    rw [same]
    exact splitOn_line noFeed ends
  · intro found
    obtain ⟨inside, same⟩ := List.getElem?_eq_some_iff.mp found
    have split : (Text.splitAt '\n' text).take number ++ line :: (Text.splitAt '\n' text).drop (number + 1) =
        Text.splitAt '\n' text := by
      rw [← same, ← List.drop_eq_getElem_cons, List.take_append_drop]
    obtain ⟨after, whole, ends⟩ := intercalate_split _ _ line
    rw [split, splitAt_eq_splitOn, List.intercalate_splitOn, ← splitAt_eq_splitOn] at whole
    refine ⟨_, after, whole, not_mem_of_mem_splitAt (List.mem_of_getElem? found), ?_, ends, ?_⟩
    · rcases last : (fed ((Text.splitAt '\n' text).take number)).getLast? with _ | c
      · exact .inl (List.getLast?_eq_none_iff.mp last)
      · exact .inr (congrArg some (wholeLines_fed _ c last))
    · rw [count_fed fun part among => not_mem_of_mem_splitAt (List.mem_of_mem_take among), List.length_take,
        Nat.min_eq_left inside.le]

/-! ## Scanning -/

instance (directive : Directive) : Decidable directive.Known := inferInstanceAs (Decidable (_ ∨ _))

/-- The known directives of lines with the numbers of these, which are counted from the given number on. -/
def marks (number : Nat) (lines : List (List Char)) : List (Nat × Directive) :=
  (lines.zipIdx number).filterMap fun (line, number) => ((directive? (trim line)).filter (·.Known)).map (number, ·)

/-- Goes through directives as `scanLines` goes through their lines. -/
def scanMarks (unit : String) (directives : Directives) (events : List LogEvent) :
    List (Nat × Directive) → Except ScanError Directives × List LogEvent
  | [] => (.ok directives, events.reverse)
  | (number, directive) :: rest =>
    match directives.apply? directive with
    | none => scanMarks unit directives events rest
    | some (.ok directives) => scanMarks unit directives (directiveEvent unit number directive.name :: events) rest
    | some (.error message) => (.error (.directive number message), events.reverse)

private theorem apply?_unknown {directives : Directives} {directive : Directive} (unknown : ¬ directive.Known) :
    directives.apply? directive = none := by
  unfold Directive.Known at unknown
  unfold Directives.apply?
  split <;> simp_all

private theorem scanLines_eq (unit : String) (number : Nat) (directives : Directives) (events : List LogEvent)
    (lines : List (List Char)) :
    scanLines unit number directives events lines = scanMarks unit directives events (marks number lines) := by
  induction lines generalizing number directives events with
  | nil => rfl
  | cons line lines ih =>
    rw [scanLines, marks, List.zipIdx_cons]
    rcases found : directive? (trim line) with _ | directive
    · rw [List.filterMap_cons_none (by simp [found])]
      exact ih ..
    · by_cases known : directive.Known
      · rw [List.filterMap_cons_some (b := (number, directive)) (by simp [found, known]), scanMarks]
        rcases applied : directives.apply? directive with _ | message | next
        all_goals simp only [applied]
        · exact ih ..
        · exact ih ..
      · rw [List.filterMap_cons_none (by simp [found, known])]
        simp only [apply?_unknown known]
        exact ih ..

private theorem mem_marks {number : Nat} {directive : Directive} {text : List Char} :
    (number, directive) ∈ marks 1 (Text.splitAt '\n' text) ↔
      directive.Known ∧ ∃ line, LineOf text number line ∧ DirectiveLine line directive := by
  constructor
  · intro among
    obtain ⟨⟨line, n⟩, inside, found⟩ := List.mem_filterMap.mp among
    obtain ⟨other, kept, same⟩ := Option.map_eq_some_iff.mp found
    obtain ⟨rfl, rfl⟩ := Prod.mk.inj same
    obtain ⟨read, known⟩ := Option.filter_eq_some_iff.mp kept
    obtain ⟨later, here⟩ := List.mk_mem_zipIdx_iff_le_and_getElem?_sub.mp inside
    refine ⟨of_decide_eq_true known, line, ?_, directive?_trim.mp read⟩
    have count : n = n - 1 + 1 := by omega
    rw [count]
    exact lineOf_iff.mpr here
  · rintro ⟨known, line, isLine, spells⟩
    refine List.mem_filterMap.mpr ⟨(line, number), ?_, by simp [directive?_trim.mpr spells, known]⟩
    obtain ⟨count, rfl⟩ : ∃ count, number = count + 1 := by
      obtain ⟨before, _, _, _, _, _, rfl⟩ := isLine
      exact ⟨_, rfl⟩
    exact List.mk_mem_zipIdx_iff_le_and_getElem?_sub.mpr ⟨by omega, lineOf_iff.mp isLine⟩

private theorem marks_pairwise (number : Nat) (lines : List (List Char)) : (marks number lines).Pairwise (·.1 < ·.1) := by
  have ordered : (lines.zipIdx number).Pairwise (·.2 < ·.2) := by
    have range : (List.range' number lines.length).Pairwise (· < ·) := List.pairwise_lt_range'
    rw [← List.zipIdx_map_snd] at range
    exact List.pairwise_map.mp range
  refine List.Pairwise.filterMap _ ?_ ordered
  intro a b before first found second foundToo
  obtain ⟨_, _, rfl⟩ := Option.map_eq_some_iff.mp found
  obtain ⟨_, _, rfl⟩ := Option.map_eq_some_iff.mp foundToo
  exact before

/-- What is told of directives does not say more than which there are. -/
theorem Directives.Tell.unique {directives others : Directives} {spelled : Nat → Directive → Prop}
    (tell : directives.Tell spelled) (tellToo : others.Tell spelled) : directives = others := by
  obtain ⟨debug, ignoring, norun, loader⟩ := directives
  obtain ⟨debug', ignoring', norun', loader'⟩ := others
  obtain rfl : debug = debug' := Bool.eq_iff_iff.mpr (tell.debug.trans tellToo.debug.symm)
  obtain rfl : ignoring = ignoring' := Bool.eq_iff_iff.mpr (tell.ignoreBracketErrors.trans tellToo.ignoreBracketErrors.symm)
  obtain rfl : norun = norun' := Bool.eq_iff_iff.mpr (tell.norun.trans tellToo.norun.symm)
  obtain rfl : loader = loader' := Option.ext fun word => (tell.loader word).trans (tellToo.loader word).symm
  rfl

theorem Directives.Tell.congr {directives : Directives} {spelled others : Nat → Directive → Prop}
    (tell : directives.Tell spelled)
    (same : ∀ number directive, directive.Known → (spelled number directive ↔ others number directive)) :
    directives.Tell others := by
  have debug (number argument) := same number ⟨"debug", argument⟩ (.inl rfl)
  have ignoring (number argument) := same number ⟨"ignoreBracketErrors", argument⟩ (.inr (.inl rfl))
  have norun (number argument) := same number ⟨"norun", argument⟩ (.inr (.inr (.inl rfl)))
  have loader (number argument) := same number ⟨"loader", argument⟩ (.inr (.inr (.inr rfl)))
  constructor
  · simpa only [debug] using tell.debug
  · simpa only [ignoring] using tell.ignoreBracketErrors
  · simpa only [norun] using tell.norun
  · simpa only [loader] using tell.loader

theorem Directives.tell_initial : Directives.initial.Tell fun _ _ => False := by
  constructor <;> simp [Directives.initial]

/-- One more directive on a line after the others. -/
theorem Directives.Tell.step {directives next : Directives} {spelled : Nat → Directive → Prop} {number : Nat}
    {directive : Directive} (tell : directives.Tell spelled) (before : ∀ n d, spelled n d → n < number)
    (applied : directives.apply? directive = some (.ok next)) :
    next.Tell fun n d => spelled n d ∨ (n = number ∧ d = directive) := by
  obtain ⟨name, argument⟩ := directive
  obtain ⟨debug, ignoring, norun, loader⟩ := tell
  unfold Directives.apply? at applied
  split at applied
  case h_4 =>
    -- the loader of the last line takes the place of every earlier one
    split at applied
    · obtain rfl := Except.ok.inj (Option.some.inj applied)
      rename_i named _ word given
      obtain rfl : name = "loader" := named
      obtain rfl : argument = some word := given
      constructor
      · simp [debug]
      · simp [ignoring]
      · simp [norun]
      · intro other
        constructor
        · rintro ⟨⟩
          refine ⟨number, .inr ⟨rfl, rfl⟩, ?_⟩
          rintro later argument less (found | ⟨rfl, -⟩)
          · exact absurd (before _ _ found) less.asymm
          · exact absurd less (Nat.lt_irrefl _)
        · rintro ⟨n, found | ⟨rfl, same⟩, last⟩
          · exact absurd (.inr ⟨rfl, rfl⟩) (last number (some word) (before _ _ found))
          · simpa using same.symm
    · cases Option.some.inj applied
  case h_5 => cases applied
  all_goals
    obtain rfl := Except.ok.inj (Option.some.inj applied)
    rename_i named
    obtain rfl : name = _ := named
    constructor
  all_goals simp [debug, ignoring, norun, loader, exists_or]

/-- A known directive is applied, unless it is a `#loader` without a word. -/
theorem apply?_known (directives : Directives) {directive : Directive} (known : directive.Known) :
    (directive = .bareLoader ∧ directives.apply? directive = some (.error "#loader requires a loader name")) ∨
      (directive ≠ .bareLoader ∧ ∃ next, directives.apply? directive = some (.ok next)) := by
  obtain ⟨name, argument⟩ := directive
  rcases known with rfl | rfl | rfl | rfl
  case inr.inr.inr =>
    cases argument with
    | none => exact .inl ⟨rfl, rfl⟩
    | some word => exact .inr ⟨by simp [Directive.bareLoader], _, rfl⟩
  all_goals exact .inr ⟨by simp [Directive.bareLoader], _, rfl⟩

private theorem scanMarks_cases (unit : String) (events : List LogEvent) {directives : Directives} {spelled : Nat → Directive → Prop}
    {marks : List (Nat × Directive)} (tell : directives.Tell spelled) (known : ∀ mark ∈ marks, mark.2.Known)
    (ordered : marks.Pairwise (·.1 < ·.1)) (before : ∀ n d, spelled n d → ∀ mark ∈ marks, n < mark.1) :
    (∃ n, (scanMarks unit directives events marks).1 = .error (.directive n "#loader requires a loader name") ∧
        (n, .bareLoader) ∈ marks ∧ ∀ earlier < n, (earlier, .bareLoader) ∉ marks) ∨
      ∃ told, (scanMarks unit directives events marks).1 = .ok told ∧ (∀ n, (n, .bareLoader) ∉ marks) ∧
        told.Tell fun n d => spelled n d ∨ (n, d) ∈ marks := by
  induction marks generalizing events directives spelled with
  | nil => exact .inr ⟨directives, rfl, by simp, by simpa using tell⟩
  | cons mark marks ih =>
    obtain ⟨number, directive⟩ := mark
    obtain ⟨first, ordered⟩ := List.pairwise_cons.mp ordered
    rw [scanMarks]
    rcases apply?_known directives (known _ List.mem_cons_self) with ⟨rfl, applied⟩ | ⟨other, next, applied⟩
    · -- the scan ends here, and all other marks are later
      refine .inl ⟨number, by rw [applied], List.mem_cons_self, ?_⟩
      intro earlier less among
      rcases List.mem_cons.mp among with same | among
      · exact absurd (congrArg Prod.fst same) less.ne
      · exact absurd (first _ among) less.asymm
    · have after := tell.step (fun n d found => before n d found _ List.mem_cons_self) applied
      have later : ∀ n d, spelled n d ∨ (n = number ∧ d = directive) → ∀ mark ∈ marks, n < mark.1 := by
        rintro n d (found | ⟨rfl, rfl⟩) mark among
        · exact before n d found mark (List.mem_cons_of_mem _ among)
        · exact first mark among
      simp only [applied]
      have rest := ih (directiveEvent unit number directive.name :: events) after
        (fun mark among => known mark (List.mem_cons_of_mem _ among)) ordered later
      rcases rest with ⟨n, failed, among, least⟩ | ⟨told, done, none, tells⟩
      · refine .inl ⟨n, failed, List.mem_cons_of_mem _ among, ?_⟩
        intro earlier less among
        rcases List.mem_cons.mp among with same | among
        · exact other (congrArg Prod.snd same).symm
        · exact least earlier less among
      · refine .inr ⟨told, done, ?_, tells.congr fun n d _ => ?_⟩
        · intro n among
          rcases List.mem_cons.mp among with same | among
          · exact other (congrArg Prod.snd same).symm
          · exact none n among
        · rw [List.mem_cons, Prod.mk.injEq, or_assoc]

/-- The known directives of a text. -/
theorem mem_marks_text {text : String} {number : Nat} {directive : Directive} (known : directive.Known) :
    (number, directive) ∈ marks 1 (Text.splitAt '\n' text.toList) ↔ DirectiveAt text number directive :=
  mem_marks.trans (and_iff_right known)

section
variable (unit : String) {bytes : Bytes} {text : String} (decoded : Text.Utf8.decode bytes = .ok text)
include decoded

private theorem scan_eq_scanMarks :
    scan unit (.ok bytes) = scanMarks unit .initial [] (marks 1 (Text.splitAt '\n' text.toList)) := by
  rw [scan]
  simp only [decoded]
  rw [scanLines_lines, scanLines_eq]

private theorem scan_cases :
    (∃ number, (scan unit (.ok bytes)).1 = .error (.directive number "#loader requires a loader name") ∧
        DirectiveAt text number .bareLoader ∧ ∀ earlier < number, ¬ DirectiveAt text earlier .bareLoader) ∨
      ∃ told, (scan unit (.ok bytes)).1 = .ok told ∧ (∀ number, ¬ DirectiveAt text number .bareLoader) ∧
        told.Tell (DirectiveAt text) := by
  have bare : Directive.bareLoader.Known := .inr (.inr (.inr rfl))
  have cases := scanMarks_cases unit [] Directives.tell_initial (fun mark among => (mem_marks.mp among).1)
    (marks_pairwise 1 (Text.splitAt '\n' text.toList)) (fun n d none => none.elim)
  simp only [← scan_eq_scanMarks unit decoded, false_or, mem_marks_text bare] at cases
  rcases cases with failed | ⟨told, done, noBare, tell⟩
  · exact .inl failed
  · exact .inr ⟨told, done, noBare, tell.congr fun n d known => mem_marks_text known⟩

/-- A scan fails at the first line that spells `#loader` without a word, and otherwise tells what the directives say; lines that
spell no known directive make no difference to it. -/
theorem scan_iff_directives :
    (∀ error, (scan unit (.ok bytes)).1 = .error error ↔
        ∃ number, error = .directive number "#loader requires a loader name" ∧ DirectiveAt text number .bareLoader ∧
          ∀ earlier < number, ¬ DirectiveAt text earlier .bareLoader) ∧
      (∀ directives, (scan unit (.ok bytes)).1 = .ok directives ↔
        (∀ number, ¬ DirectiveAt text number .bareLoader) ∧ directives.Tell (DirectiveAt text)) ∧
      ∀ others otherText, Text.Utf8.decode others = .ok otherText →
        (∀ number directive, directive.Known → (DirectiveAt otherText number directive ↔ DirectiveAt text number directive)) →
        scan unit (.ok others) = scan unit (.ok bytes) := by
  have cases := scan_cases unit decoded
  refine ⟨?_, ?_, ?_⟩
  · intro error
    constructor
    · intro failed
      rcases cases with ⟨number, same, bare⟩ | ⟨told, done, -⟩
      · exact ⟨number, Except.error.inj (failed.symm.trans same), bare⟩
      · exact nomatch failed.symm.trans done
    · rintro ⟨number, rfl, bare, first⟩
      rcases cases with ⟨other, same, bareToo, firstToo⟩ | ⟨-, -, noBare, -⟩
      · obtain rfl : number = other := by
          rcases Nat.lt_trichotomy number other with less | same | more
          · exact absurd bare (firstToo number less)
          · exact same
          · exact absurd bareToo (first other more)
        exact same
      · exact absurd bare (noBare number)
  · intro directives
    constructor
    · intro done
      rcases cases with ⟨number, failed, -⟩ | ⟨told, doneToo, noBare, tell⟩
      · exact nomatch done.symm.trans failed
      · obtain rfl := Except.ok.inj (done.symm.trans doneToo)
        exact ⟨noBare, tell⟩
    · rintro ⟨noBare, tell⟩
      rcases cases with ⟨number, -, bare, -⟩ | ⟨told, done, -, tellToo⟩
      · exact absurd bare (noBare number)
      · rw [done, tell.unique tellToo]
  · intro others otherText decodedToo same
    -- marks are sorted by their lines, so the same marks are the same list
    have marked : marks 1 (Text.splitAt '\n' otherText.toList) = marks 1 (Text.splitAt '\n' text.toList) := by
      have antisymm : Std.Antisymm fun a b : Nat × Directive => a.1 < b.1 := ⟨fun a b less more => absurd more less.asymm⟩
      have irrefl : Std.Irrefl fun a b : Nat × Directive => a.1 < b.1 := ⟨fun a => Nat.lt_irrefl _⟩
      refine (marks_pairwise 1 _).eq_of_mem_iff (marks_pairwise 1 _) ?_
      rintro ⟨number, directive⟩
      by_cases known : directive.Known
      · rw [mem_marks_text known, mem_marks_text known, same number directive known]
      · simp only [mem_marks, known, false_and]
    rw [scan_eq_scanMarks unit decoded, scan_eq_scanMarks unit decodedToo, marked]

end

/-- Blanks of all kinds around directives, two loaders, and lines that are not directives. -/
def directedText : String := "\u3000#debug\r\n#loader one\n# norun\n#norun a b\nemit(1); #norun\n#nested\n\t#loader \t two \n"

theorem directedText_scan :
    (Directives.mk true false false (some "two")).Tell (DirectiveAt directedText) ∧
      DirectiveAt "#norun\n #loader \n#loader\n" 2 .bareLoader := by
  constructor
  · have decoded : Text.Utf8.decode directedText.toUTF8.toList = .ok directedText := by decide +kernel
    have scanned : (scan "unit" (.ok directedText.toUTF8.toList)).1 = .ok ⟨true, false, false, some "two"⟩ := by decide +kernel
    exact (((scan_iff_directives "unit" decoded).2.1 _).mp scanned).2
  · have decoded : Text.Utf8.decode "#norun\n #loader \n#loader\n".toUTF8.toList = .ok "#norun\n #loader \n#loader\n" := by
      decide +kernel
    have scanned : (scan "unit" (.ok "#norun\n #loader \n#loader\n".toUTF8.toList)).1 =
        .error (.directive 2 "#loader requires a loader name") := by decide +kernel
    obtain ⟨number, same, bare, -⟩ := ((scan_iff_directives "unit" decoded).1 _).mp scanned
    obtain rfl : 2 = number := (ScanError.directive.inj same).1
    exact bare

end Scriptorium.Build
