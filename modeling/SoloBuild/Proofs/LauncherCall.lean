import Mathlib.Data.List.TakeWhile
import SoloBuild.Proofs.HeaderSearch
import SoloBuild.Proofs.SpacedWords

/-!
# Calls of the launcher

A build command line calls the launcher by its path in double quotes, may give it flags, and then
names a target. The target is read at the leftmost place where such a call is followed by a word
that begins as a target name does. Of that word it is the longest front of characters that a target
name can hold: the whole word when it is a target name, and otherwise less than the word.

## Key results

- `targetHere?_eq_some_iff`: what is read at a place, by the call that stands there
- `findTarget?_eq_some_iff`: the leftmost place is read
- `targetOf_call`: the target of a call is found
- `targetOf_namesWord`: the target is a front of the word behind the leftmost call
-/

namespace SoloBuild.Launcher

open Text

/-! ## Calls -/

/-- The launcher in double quotes, and flags, each of more than a dash, with blanks around all of
them: a command line up to what it names. -/
structure Call where
  program : List Char
  flags : List SpacedOption
  gap : Gap
  unquoted : '"' ∉ program
  launches : ∃ ending ∈ programEndings, ending <:+ program
  flags_ne_nil : ∀ flag ∈ flags, flag.rest ≠ []

/-- The text of a call. -/
def Call.text (call : Call) : List Char :=
  '"' :: (call.program ++ '"' :: (optionsText call.flags ++ call.gap.text))

/-- The text begins with a call, and `word` is the word behind it, which begins as a target name
does. -/
def CallsWith (text word : List Char) : Prop :=
  ∃ (call : Call) (after : List Char), text = call.text ++ (word ++ after) ∧
    (∃ c ∈ word.head?, isTargetStart c = true) ∧ (∀ c ∈ word, isBlank c = false) ∧ EndsWord after

/-- `word` is the word behind the leftmost call that is followed by a word which begins as a target
name does. -/
def NamesWord (text word : List Char) : Prop :=
  ∃ place, place <:+ text ∧ CallsWith place word ∧
    ∀ earlier other, earlier <:+ text → place.length < earlier.length → ¬ CallsWith earlier other

/-! ## The characters of a target name -/

/-- No character of a target name is a blank. -/
theorem isBlank_eq_false_of_isTargetChar {c : Char} (h : isTargetChar c = true) :
    isBlank c = false := by
  rcases isTargetChar_cases h with hword | rfl | rfl
  · exact isBlank_eq_false_of_isWord hword
  · rfl
  · rfl

theorem isTargetChar_of_isTargetStart {c : Char} (h : isTargetStart c = true) :
    isTargetChar c = true := by
  rw [isTargetChar, h, Bool.true_or]

theorem ne_dash_of_isTargetStart {c : Char} (h : isTargetStart c = true) : c ≠ '-' := by
  rintro rfl
  exact absurd h (by decide)

/-- The target name that a text begins with ends within its first word. -/
theorem takeWhile_isTargetChar_append (word : List Char) {after : List Char}
    (hafter : EndsWord after) :
    (word ++ after).takeWhile isTargetChar = word.takeWhile isTargetChar := by
  induction word with
  | nil =>
    cases after with
    | nil => rfl
    | cons c after =>
      have hc : isTargetChar c = false := Bool.eq_false_iff.2 fun htarget =>
        Bool.false_ne_true ((isBlank_eq_false_of_isTargetChar htarget).symm.trans (hafter c rfl))
      rw [List.nil_append, List.takeWhile_cons, hc]
      rfl
  | cons c word ih => rw [List.cons_append, List.takeWhile_cons, List.takeWhile_cons, ih]

/-! ## What follows blanks and flags -/

theorem afterBlanks?_gap (gap : Gap) {c : Char} (hc : isBlank c = false) (rest : List Char) :
    afterBlanks? (gap.text ++ c :: rest) = some (c :: rest) := by
  obtain ⟨b, blanks, heq, hb, hblanks⟩ := gap.exists_cons
  rw [heq, List.cons_append, afterBlanks?, if_pos hb, skipBlanks_append hblanks hc]

theorem exists_gap_of_afterBlanks? {cs rest : List Char} (h : afterBlanks? cs = some rest) :
    ∃ gap : Gap, cs = gap.text ++ rest := by
  cases cs with
  | nil => cases h
  | cons c cs =>
    rw [afterBlanks?] at h
    split at h
    · rename_i hc
      obtain rfl := Option.some.inj h
      obtain ⟨blanks, hblanks, heq⟩ := exists_blanks_append_skipBlanks cs
      refine ⟨⟨c :: blanks, List.cons_ne_nil _ _, List.forall_mem_cons.2 ⟨hc, hblanks⟩⟩, ?_⟩
      exact congrArg (c :: ·) heq
    · cases h

theorem afterFlags_of_ne_dash {c : Char} (hc : c ≠ '-') (n : Nat) (rest : List Char) :
    afterFlags n (c :: rest) = c :: rest := by
  cases n with
  | zero => rfl
  | succ n =>
    rw [afterFlags]
    exact fun _ heq => hc (List.cons.inj heq).1

/-- A flag is passed over, with the blanks behind it. -/
theorem afterFlags_flag {body : List Char} (hne : body ≠ []) (hbody : ∀ c ∈ body, isBlank c = false)
    {behind rest : List Char} (hword : EndsWord behind) (hblanks : afterBlanks? behind = some rest)
    (n : Nat) : afterFlags (n + 1) ('-' :: (body ++ behind)) = afterFlags n rest := by
  have hrun : ∀ c ∈ body, (!isBlank c) = true := fun c hc => by rw [hbody c hc]; rfl
  have hend : ∀ c ∈ behind.head?, (!isBlank c) = false := fun c hc => by rw [hword c hc]; rfl
  obtain ⟨htake, hdrop⟩ := takeWhile_dropWhile_append hrun hend
  rw [afterFlags, htake, hdrop, hblanks, if_neg (mt List.isEmpty_iff.1 hne)]

/-- Behind flags and blanks, what does not begin with a dash is left. -/
theorem exists_afterFlags_eq {flags : List SpacedOption} (hflags : ∀ flag ∈ flags, flag.rest ≠ [])
    (gap : Gap) {c : Char} (hc : isBlank c = false) (hdash : c ≠ '-') (rest : List Char) :
    ∃ behind, afterBlanks? (optionsText flags ++ (gap.text ++ c :: rest)) = some behind ∧
      flags.length ≤ behind.length ∧
      ∀ n, flags.length ≤ n → afterFlags n behind = c :: rest := by
  induction flags with
  | nil =>
    exact ⟨c :: rest, afterBlanks?_gap gap hc rest, Nat.zero_le _,
      fun n _ => afterFlags_of_ne_dash hdash n rest⟩
  | cons flag flags ih =>
    rw [List.forall_mem_cons] at hflags
    obtain ⟨behind, hblanks, hlength, hbehind⟩ := ih hflags.2
    have hword := endsWord_optionsText flags gap (c :: rest)
    refine ⟨'-' :: (flag.rest ++ (optionsText flags ++ (gap.text ++ c :: rest))), ?_, ?_, ?_⟩
    · have hfirst := afterBlanks?_gap flag.gap (c := '-') rfl
        (flag.rest ++ (optionsText flags ++ (gap.text ++ c :: rest)))
      simpa [optionsText, SpacedOption.text, SpacedOption.word] using hfirst
    -- Every flag has its dash, so there are no more flags than characters.
    · obtain ⟨gap', heq⟩ := exists_gap_of_afterBlanks? hblanks
      rw [heq]
      simp only [List.length_cons, List.length_append]
      omega
    · intro n hn
      cases n with
      | zero => cases hn
      | succ n =>
        rw [afterFlags_flag hflags.1 flag.notBlank hword hblanks]
        exact hbehind n (Nat.le_of_succ_le_succ hn)

/-- What is left behind blanks and flags, with them before it, is the text. -/
theorem exists_flags_of_afterFlags (n : Nat) (gap : Gap) (behind : List Char) :
    ∃ (flags : List SpacedOption) (last : Gap), (∀ flag ∈ flags, flag.rest ≠ []) ∧
      gap.text ++ behind = optionsText flags ++ (last.text ++ afterFlags n behind) := by
  fun_induction afterFlags n behind generalizing gap with
  | case1 | case2 | case4 | case5 => exact ⟨[], gap, List.forall_mem_nil _, rfl⟩
  -- A flag is passed over, and the blanks behind it stand before what is next.
  | case3 n rest hne behind hblanks ih =>
    obtain ⟨next, hnext⟩ := exists_gap_of_afterBlanks? hblanks
    obtain ⟨flags, last, hflags, heq⟩ := ih next
    have hbody : ∀ c ∈ rest.takeWhile fun c => !isBlank c, isBlank c = false := fun c hc => by
      simpa using List.all_eq_true.1 List.all_takeWhile c hc
    refine ⟨⟨gap, rest.takeWhile fun c => !isBlank c, hbody⟩ :: flags, last,
      List.forall_mem_cons.2 ⟨mt List.isEmpty_iff.2 hne, hflags⟩, ?_⟩
    rw [optionsText, List.flatMap_cons, ← optionsText, List.append_assoc, ← heq, ← hnext,
      SpacedOption.text, SpacedOption.word, List.append_assoc, List.cons_append,
      List.takeWhile_append_dropWhile]

/-! ## What is read at a place -/

private theorem anyEnding_iff {program : List Char} :
    programEndings.any (·.isSuffixOf program) = true ↔
      ∃ ending ∈ programEndings, ending <:+ program := by
  simp only [List.any_eq_true, List.isSuffixOf_iff_suffix]

theorem targetHere?_of_ne_quote {c : Char} (hc : c ≠ '"') (cs : List Char) :
    targetHere? (c :: cs) = none := by
  rw [targetHere?]
  exact fun _ heq => hc (List.cons.inj heq).1

/-- At a call, the longest front of target characters behind it is read. -/
theorem targetHere?_call (call : Call) {c : Char} (hc : isTargetStart c = true)
    (rest : List Char) :
    targetHere? (call.text ++ c :: rest) = some ((c :: rest).takeWhile isTargetChar) := by
  have hblank := isBlank_eq_false_of_isTargetChar (isTargetChar_of_isTargetStart hc)
  obtain ⟨behind, hblanks, hlength, hflags⟩ :=
    exists_afterFlags_eq call.flags_ne_nil call.gap hblank (ne_dash_of_isTargetStart hc) rest
  have hprogram := upTo?_append_cons call.unquoted
    (optionsText call.flags ++ (call.gap.text ++ c :: rest))
  have hlaunches := anyEnding_iff.2 call.launches
  simp only [Call.text, List.cons_append, List.append_assoc, targetHere?, hprogram,
    Option.bind_some, hlaunches, if_true, hblanks, hflags behind.length hlength, hc]

/-- Only at a call something is read. -/
theorem exists_call_of_targetHere? {text target : List Char} (h : targetHere? text = some target) :
    ∃ (call : Call) (c : Char) (rest : List Char), text = call.text ++ c :: rest ∧
      isTargetStart c = true ∧ target = (c :: rest).takeWhile isTargetChar := by
  rw [targetHere?.eq_def] at h
  split at h
  · rename_i cs
    obtain ⟨⟨program, rest⟩, hprogram, hread⟩ := Option.bind_eq_some_iff.1 h
    obtain ⟨hcs, hunquoted⟩ := upTo?_eq_some hprogram
    dsimp only at hread
    split at hread
    · rename_i hlaunches
      obtain ⟨behind, hblanks, hnamed⟩ := Option.bind_eq_some_iff.1 hread
      obtain ⟨gap, rfl⟩ := exists_gap_of_afterBlanks? hblanks
      obtain ⟨flags, last, hflags, heq⟩ := exists_flags_of_afterFlags behind.length gap behind
      split at hnamed
      · rename_i c rest hrest
        rw [hrest] at heq hnamed
        split at hnamed
        · rename_i hc
          have hending := anyEnding_iff.1 hlaunches
          refine ⟨⟨program, flags, last, hunquoted, hending, hflags⟩, c, rest, ?_, hc,
            (Option.some.inj hnamed).symm⟩
          simp [Call.text, hcs, heq]
        · cases hnamed
      · cases hnamed
    · cases hread
  · cases h

/-- What is read at a place is the longest front of target characters of the word behind the call
that stands there. -/
theorem targetHere?_eq_some_iff {text target : List Char} :
    targetHere? text = some target ↔
      ∃ word, CallsWith text word ∧ target = word.takeWhile isTargetChar := by
  constructor
  · intro h
    obtain ⟨call, c, rest, rfl, hc, rfl⟩ := exists_call_of_targetHere? h
    obtain ⟨word, after, rfl, hword, hafter⟩ := exists_word_append rest
    have hblank := isBlank_eq_false_of_isTargetChar (isTargetChar_of_isTargetStart hc)
    refine ⟨c :: word, ⟨call, after, rfl, ⟨c, rfl, hc⟩, ?_, hafter⟩, ?_⟩
    · exact List.forall_mem_cons.2 ⟨hblank, hword⟩
    · exact takeWhile_isTargetChar_append (c :: word) hafter
  · rintro ⟨word, ⟨call, after, rfl, ⟨c, hhead, hc⟩, -, hafter⟩, rfl⟩
    cases word with
    | nil => cases hhead
    | cons d word =>
      obtain rfl : d = c := Option.some.inj hhead
      rw [← takeWhile_isTargetChar_append _ hafter]
      exact targetHere?_call call hc (word ++ after)

/-! ## The leftmost place -/

/-- The leftmost place is read at which there is something to read. -/
theorem findTarget?_eq_some_iff {text target : List Char} :
    findTarget? text = some target ↔
      ∃ place, place <:+ text ∧ targetHere? place = some target ∧
        ∀ earlier, earlier <:+ text → place.length < earlier.length →
          targetHere? earlier = none := by
  induction text with
  | nil => simp [findTarget?, targetHere?]
  | cons c cs ih =>
    rw [findTarget?]
    cases hhere : targetHere? (c :: cs) with
    | some found =>
      -- Something is read at the start, so at no other place.
      constructor
      · rintro ⟨⟩
        exact ⟨c :: cs, List.suffix_refl _, hhere, fun earlier hearlier hlt =>
          absurd hearlier.length_le (Nat.not_le.2 hlt)⟩
      · rintro ⟨place, hplace, hread, hleft⟩
        rcases List.suffix_cons_iff.1 hplace with rfl | hplace
        · exact hhere.symm.trans hread
        · have hnone := hleft (c :: cs) (List.suffix_refl _) (Nat.lt_succ_of_le hplace.length_le)
          cases hhere.symm.trans hnone
    | none =>
      simp only [ih, List.suffix_cons_iff]
      constructor
      · rintro ⟨place, hplace, hread, hleft⟩
        refine ⟨place, .inr hplace, hread, fun earlier hearlier hlt => ?_⟩
        exact hearlier.elim (fun heq => heq ▸ hhere) fun hsuffix => hleft earlier hsuffix hlt
      · rintro ⟨place, rfl | hplace, hread, hleft⟩
        · cases hhere.symm.trans hread
        · exact ⟨place, hplace, hread, fun earlier hearlier => hleft earlier (.inr hearlier)⟩

theorem findTarget?_of_targetHere? {text target : List Char} (h : targetHere? text = some target) :
    findTarget? text = some target :=
  findTarget?_eq_some_iff.2 ⟨text, List.suffix_refl _, h, fun _ hearlier hlt =>
    absurd hearlier.length_le (Nat.not_le.2 hlt)⟩

/-- Nothing is read where no double quote stands. -/
theorem findTarget?_append_of_not_mem {before : List Char} (h : '"' ∉ before) (text : List Char) :
    findTarget? (before ++ text) = findTarget? text := by
  induction before with
  | nil => rfl
  | cons c before ih =>
    rw [List.mem_cons, not_or] at h
    rw [List.cons_append, findTarget?, targetHere?_of_ne_quote (Ne.symm h.1)]
    exact ih h.2

/-! ## The target of a command line -/

/-- The target of a call is found, whatever stands before its launcher without a double quote, and
behind the target after a blank. -/
theorem targetOf_call {before target after : List Char} (call : Call) (hbefore : '"' ∉ before)
    (htarget : IsTargetName target) (hafter : EndsWord after) :
    targetOf (String.ofList (before ++ (call.text ++ (target ++ after)))) =
      .ok (String.ofList target) := by
  obtain ⟨hstart, hchars⟩ := htarget
  have hcalls : CallsWith (call.text ++ (target ++ after)) target :=
    ⟨call, after, rfl, hstart, fun c hc => isBlank_eq_false_of_isTargetChar (hchars c hc), hafter⟩
  have hhere : targetHere? (call.text ++ (target ++ after)) = some target :=
    targetHere?_eq_some_iff.2 ⟨target, hcalls, (List.takeWhile_eq_self_iff.2 hchars).symm⟩
  rw [targetOf, String.toList_ofList, findTarget?_append_of_not_mem hbefore,
    findTarget?_of_targetHere? hhere]

/-- A call with flags that hold quotes, points and dashes. -/
def flaggedCall : Call where
  program := "FBuild.bat".toList
  flags := [⟨⟨[' '], by decide, by decide⟩, "d\"x.exe\"".toList, by decide⟩,
    ⟨⟨[' ', ' '], by decide, by decide⟩, "-v=1".toList, by decide⟩]
  gap := ⟨[' '], by decide, by decide⟩
  unquoted := by decide
  launches := by decide
  flags_ne_nil := by decide

/-- A target between words, with a dash and a point in its name. -/
theorem targetOf_call_sample :
    '"' ∉ "cd src && ".toList ∧ IsTargetName "Engine-Debug.x64".toList ∧
      EndsWord " -clean \"y.exe\" z".toList ∧
      targetOf "cd src && \"FBuild.bat\" -d\"x.exe\"  --v=1 Engine-Debug.x64 -clean \"y.exe\" z" =
        .ok "Engine-Debug.x64" := by
  have hbefore : '"' ∉ "cd src && ".toList := by decide
  have htarget : IsTargetName "Engine-Debug.x64".toList := by decide
  have hafter : EndsWord " -clean \"y.exe\" z".toList := by decide
  have htext : String.ofList ("cd src && ".toList ++ (flaggedCall.text ++
      ("Engine-Debug.x64".toList ++ " -clean \"y.exe\" z".toList))) =
      "cd src && \"FBuild.bat\" -d\"x.exe\"  --v=1 Engine-Debug.x64 -clean \"y.exe\" z" := by
    decide +kernel
  have hcall := targetOf_call flaggedCall hbefore htarget hafter
  rw [htext, String.ofList_toList] at hcall
  exact ⟨hbefore, htarget, hafter, hcall⟩

/-! ## The word that a target is part of -/

theorem findTarget?_eq_some_iff_namesWord {text target : List Char} :
    findTarget? text = some target ↔
      ∃ word, NamesWord text word ∧ target = word.takeWhile isTargetChar := by
  rw [findTarget?_eq_some_iff]
  constructor
  · rintro ⟨place, hplace, hread, hleft⟩
    obtain ⟨word, hcalls, htarget⟩ := targetHere?_eq_some_iff.1 hread
    refine ⟨word, ⟨place, hplace, hcalls, fun earlier other hearlier hlt hother => ?_⟩, htarget⟩
    have hnone := hleft earlier hearlier hlt
    rw [targetHere?_eq_some_iff.2 ⟨other, hother, rfl⟩] at hnone
    cases hnone
  · rintro ⟨word, ⟨place, hplace, hcalls, hleft⟩, htarget⟩
    refine ⟨place, hplace, targetHere?_eq_some_iff.2 ⟨word, hcalls, htarget⟩, ?_⟩
    intro earlier hearlier hlt
    cases hread : targetHere? earlier with
    | none => rfl
    | some found =>
      obtain ⟨other, hother, -⟩ := targetHere?_eq_some_iff.1 hread
      exact absurd hother (hleft earlier other hearlier hlt)

/-- What stands behind a call is a word of the whole text. -/
theorem NamesWord.mem_words {text word : List Char} (h : NamesWord text word) :
    word ∈ words text := by
  obtain ⟨place, ⟨front, rfl⟩, ⟨call, after, rfl, ⟨c, hhead, -⟩, hword, hafter⟩, -⟩ := h
  have hne : word ≠ [] := by
    rintro rfl
    cases hhead
  have hsplit : front ++ (call.text ++ (word ++ after)) =
      (front ++ '"' :: (call.program ++ '"' :: optionsText call.flags)) ++
        (call.gap.text ++ (word ++ after)) := by
    simp [Call.text]
  rw [hsplit, call.gap.words_append, words_append_of_endsWord hne hword hafter]
  exact List.mem_append_right _ List.mem_cons_self

theorem NamesWord.isTargetName_iff {text word : List Char} (h : NamesWord text word) :
    word.takeWhile isTargetChar = word ↔ IsTargetName word := by
  obtain ⟨_, _, ⟨_, _, _, hstart, -⟩, -⟩ := h
  rw [List.takeWhile_eq_self_iff]
  exact ⟨fun hchars => ⟨hstart, hchars⟩, fun hname => hname.2⟩

theorem targetOf_eq_ok_iff {commandLine name : String} :
    targetOf commandLine = .ok name ↔ findTarget? commandLine.toList = some name.toList := by
  rw [targetOf]
  cases findTarget? commandLine.toList with
  | none => simp
  | some target => simp [String.ext_iff]

/-- The target is the longest front of target characters of the word behind the leftmost call, and
it is this word exactly when the word is a target name. There is no target exactly when there is no
such word. -/
theorem targetOf_namesWord (commandLine : String) :
    (∀ name : String, targetOf commandLine = .ok name ↔
      ∃ word ∈ words commandLine.toList, NamesWord commandLine.toList word ∧
        name.toList = word.takeWhile isTargetChar ∧
        (name.toList = word ↔ IsTargetName word)) ∧
      (targetOf commandLine = .error (.noTarget commandLine) ↔
        ∀ word, ¬ NamesWord commandLine.toList word) := by
  constructor
  · intro name
    rw [targetOf_eq_ok_iff, findTarget?_eq_some_iff_namesWord]
    constructor
    · rintro ⟨word, hnames, htarget⟩
      refine ⟨word, hnames.mem_words, hnames, htarget, ?_⟩
      rw [htarget, hnames.isTargetName_iff]
    · rintro ⟨word, -, hnames, htarget, -⟩
      exact ⟨word, hnames, htarget⟩
  · rw [targetOf]
    cases hfind : findTarget? commandLine.toList with
    | none =>
      refine iff_of_true rfl fun word hnames => ?_
      cases hfind.symm.trans (findTarget?_eq_some_iff_namesWord.2 ⟨word, hnames, rfl⟩)
    | some target =>
      obtain ⟨word, hnames, -⟩ := findTarget?_eq_some_iff_namesWord.1 hfind
      exact iff_of_false (fun h => by cases h) fun hnone => hnone word hnames

/-- The word behind the call is no target name, and its front is taken for one. -/
theorem targetOf_cuts_word :
    targetOf "\"FBuild.bat\" Engine+Debug" = .ok "Engine" ∧
      "Engine".toList ∉ words "\"FBuild.bat\" Engine+Debug".toList := by
  decide +kernel

end SoloBuild.Launcher
