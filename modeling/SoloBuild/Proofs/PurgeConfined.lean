import SoloBuild.Proofs.Resolution
import SoloBuild.SingleFile.Synthesis

/-!
# What is purged

Before a single-file build its earlier output is removed. Which directory that is stands in the text
of the target, between quotes, and the value is whatever someone wrote there. This module says which
texts name a directory at all, and that nothing but a directory of single-file output is removed,
whatever the text says.

## Key results

- `channelDirectory?_isSome_iff`: a line names a directory when it holds the segment between quotes
- `Path.EndsWith.join`: a relative directory stays one of single-file output when it is resolved
- `purge_changes`: what purging does to the tree
- `purge_confined`: purging stays in single-file output
-/

namespace SoloBuild

open Text

/-! ## Paths that end with a directory -/

namespace Path

/-- The path ends with a name, written between separators. -/
def EndsWith (p : Path) (name : List Char) : Prop :=
  ∃ front, p.text.toList = front ++ '/' :: (name ++ ['/'])

/-- A name that stands for itself in a path. -/
structure IsSegment (name : List Char) : Prop where
  ne_nil : name ≠ []
  ne_dot : name ≠ ['.']
  ne_dots : name ≠ ['.', '.']
  no_slash : '/' ∉ name

namespace EndsWith

variable {p : Path} {name : List Char}

/-- A path that is resolved against a base keeps its end. -/
theorem join (h : p.EndsWith name) (base : Path) : (base.join p).EndsWith name := by
  obtain ⟨front, hfront⟩ := h
  rw [Path.join]
  split
  · exact ⟨front, hfront⟩
  · split
    · exact ⟨base.text.toList ++ front, by simp [hfront]⟩
    · exact ⟨base.text.toList ++ '/' :: front, by simp [hfront]⟩

/-- The segments of the path, of which the last is empty. -/
theorem exists_segments_eq (h : p.EndsWith name) (hname : IsSegment name) :
    ∃ first front, p.segments = first :: front ++ [name, []] := by
  obtain ⟨front, hfront⟩ := h
  obtain ⟨first, pieces, hpieces⟩ :=
    List.exists_cons_of_ne_nil (splitWhere_ne_nil (· == '/') front)
  refine ⟨first, pieces, ?_⟩
  rw [segments, hfront, splitWhere_append_cons rfl, splitWhere_append_cons rfl,
    splitWhere_of_not_mem '/' name hname.no_slash, hpieces]
  rfl

/-- The name is the last component. -/
theorem getLast?_components (h : p.EndsWith name) (hname : IsSegment name) :
    p.components.getLast? = some (.named (String.ofList name)) := by
  obtain ⟨first, front, hsegments⟩ := h.exists_segments_eq hname
  have hvoid : isVoidSegment name = false := by
    simp [isVoidSegment, hname.ne_nil, hname.ne_dot]
  have hcomponent : componentOf? name = some (.named (String.ofList name)) := by
    rw [componentOf?, hvoid]
    simp [hname.ne_dots]
  have hempty : componentOf? [] = none := rfl
  rw [components, hsegments]
  simp [List.filterMap_append, hcomponent, hempty]

/-- The name is the last one that the path is followed by. -/
theorem getLast?_namesOf (h : p.EndsWith name) (hname : IsSegment name) :
    (FileTree.namesOf p).getLast? = some (String.ofList name) := by
  obtain ⟨first, front, hsegments⟩ := h.exists_segments_eq hname
  rw [FileTree.namesOf, hsegments]
  simp [hname.ne_nil]

theorem asksDirectory (h : p.EndsWith name) : FileTree.asksDirectory p = true := by
  obtain ⟨front, hfront⟩ := h
  have hlast : p.text.toList = front ++ '/' :: name ++ ['/'] := by simp [hfront]
  rw [FileTree.asksDirectory, hlast, List.getLast?_concat]
  rfl

end EndsWith

end Path

/-! ## The value of a field -/

namespace SingleFile

/-- A line holds a single quote, later `segment`, and later again a single quote. -/
def HoldsSegment (segment line : List Char) : Prop :=
  ∃ before value following after,
    line = before ++ '\'' :: (value ++ segment ++ following ++ '\'' :: after)

/-- The front that is found ends with the segment, and a quote follows it. -/
theorem segmentFront?_eq_some {segment text front : List Char}
    (h : segmentFront? segment text = some front) :
    ∃ value rest, front = value ++ segment ∧ text = front ++ rest ∧ '\'' ∈ rest := by
  induction text generalizing front with
  | nil => cases h
  | cons c cs ih =>
    rw [segmentFront?] at h
    split at h
    · rename_i shorter hshorter
      obtain rfl := Option.some.inj h
      obtain ⟨value, rest, rfl, rfl, hquote⟩ := ih hshorter
      exact ⟨c :: value, rest, rfl, rfl, hquote⟩
    · split at h
      · rename_i rest hrest
        split at h
        · rename_i hquote
          obtain rfl := Option.some.inj h
          exact ⟨[], rest, rfl, eq_append_of_afterFront? hrest, List.contains_iff_mem.1 hquote⟩
        · cases h
      · cases h

/-- Where the segment stands before a quote, a front is found. -/
theorem segmentFront?_isSome (segment value following after : List Char) :
    (segmentFront? segment (value ++ segment ++ following ++ '\'' :: after)).isSome = true := by
  induction value with
  | nil =>
    obtain ⟨c, cs, htext⟩ := List.exists_cons_of_ne_nil
      (show segment ++ (following ++ '\'' :: after) ≠ [] by simp)
    have hsegment : afterFront? segment (c :: cs) = some (following ++ '\'' :: after) := by
      rw [← htext, afterFront?_append]
    -- A later occurrence of the segment is preferred; without one this occurrence is taken.
    rw [List.nil_append, List.append_assoc, htext, segmentFront?]
    cases segmentFront? segment cs with
    | some front => rfl
    | none => simp [hsegment]
  | cons c cs ih =>
    obtain ⟨front, hfront⟩ := Option.isSome_iff_exists.1 ih
    simp only [List.cons_append, segmentFront?]
    rw [hfront]
    rfl

/-- What follows the first mark ends with what follows any mark. -/
theorem exists_upTo?_eq_some {mark : Char} (before rest : List Char) :
    ∃ front more, upTo? mark (before ++ mark :: rest) = some (front, more ++ rest) := by
  induction before with
  | nil => exact ⟨[], [], by simp [upTo?]⟩
  | cons c cs ih =>
    by_cases hc : c = mark
    · exact ⟨[], cs ++ [mark], by simp [upTo?, hc]⟩
    · obtain ⟨front, more, hfound⟩ := ih
      exact ⟨c :: front, more, by simp [upTo?, hc, hfound]⟩

/-- A line names a directory of single-file output when it holds the segment between quotes. -/
theorem channelDirectory?_isSome_iff {segment line : List Char} :
    (channelDirectory? segment line).isSome = true ↔ HoldsSegment segment line := by
  constructor
  · intro h
    obtain ⟨front, hfront⟩ := Option.isSome_iff_exists.1 h
    obtain ⟨⟨before, text⟩, hquote, hvalue⟩ := Option.bind_eq_some_iff.1 hfront
    obtain ⟨value, rest, rfl, rfl, hclose⟩ := segmentFront?_eq_some hvalue
    obtain ⟨following, after, rfl⟩ := List.append_of_mem hclose
    exact ⟨before, value, following, after, by rw [(upTo?_eq_some hquote).1]; simp⟩
  · -- The value begins at the first quote of the line, which may be an earlier one.
    rintro ⟨before, value, following, after, rfl⟩
    obtain ⟨front, more, hquote⟩ :=
      exists_upTo?_eq_some before (value ++ segment ++ following ++ '\'' :: after)
    rw [channelDirectory?, hquote]
    have hsome := segmentFront?_isSome segment (more ++ value) following after
    simpa using hsome

/-- The value of a line ends with the segment. -/
theorem exists_of_channelDirectory? {segment line value : List Char}
    (h : channelDirectory? segment line = some value) : ∃ front, value = front ++ segment := by
  obtain ⟨⟨before, text⟩, -, hvalue⟩ := Option.bind_eq_some_iff.1 h
  obtain ⟨front, rest, hfront, -, -⟩ := segmentFront?_eq_some hvalue
  exact ⟨front, hfront⟩

/-! ## The directory of single-file output -/

variable {target : List Char} {projectDir dir : Path} {s : Settings} {t : FileTree}

/-- A directory is found exactly when a line that mentions the field holds the segment. -/
theorem intermediateDir?_isSome_iff :
    (intermediateDir? target projectDir s).isSome = true ↔
      ∃ line ∈ lines target, s.intermediateField.toList <:+: line ∧
        HoldsSegment s.channelSegment line := by
  simp only [intermediateDir?, Option.isSome_map, List.findSome?_isSome_iff, List.mem_filter,
    occursIn_iff, channelDirectory?_isSome_iff, and_assoc]

/-- The directory that is found is a path of single-file output, resolved against the project's. -/
theorem exists_relative_of_intermediateDir?
    (hseparator : s.pathSeparator ∉ s.singleFileTarget.toList)
    (h : intermediateDir? target projectDir s = some dir) :
    ∃ relative : Path, dir = projectDir.join relative ∧
      relative.EndsWith s.singleFileTarget.toList := by
  obtain ⟨value, hvalue, rfl⟩ := Option.map_eq_some_iff.1 h
  obtain ⟨line, -, hline⟩ := List.exists_of_findSome?_eq_some hvalue
  obtain ⟨front, rfl⟩ := exists_of_channelDirectory? hline
  refine ⟨_, rfl, front.map fun c => if c = s.pathSeparator then '/' else c, ?_⟩
  -- The separators around the name become slashes, and none is in it.
  have hname : s.singleFileTarget.toList.map (fun c => if c = s.pathSeparator then '/' else c) =
      s.singleFileTarget.toList := by
    conv_rhs => rw [← List.map_id' s.singleFileTarget.toList]
    refine List.map_congr_left fun c hc => if_neg ?_
    rintro rfl
    exact hseparator hc
  simp [Settings.channelSegment, hname]

/-! ## Purging -/

/-- Purging removes the directory of single-file output, and nothing when there is none. -/
theorem purge_fst :
    (purge t target projectDir s).1 =
      match intermediateDir? target projectDir s with
      | none => t
      | some dir => (t.removeTree dir).1 := by
  rw [purge]
  cases hdir : intermediateDir? target projectDir s with
  | none => rfl
  | some dir =>
    cases hremoved : t.removeTree dir with
    | mk after error => cases error <;> simp [hremoved]

/-- The directory that purging answers is the one of single-file output. -/
theorem intermediateDir?_of_purge_snd (h : (purge t target projectDir s).2 = some dir) :
    intermediateDir? target projectDir s = some dir := by
  rw [purge] at h
  split at h
  · cases h
  · rename_i hdir
    split at h
    · rw [hdir]
      exact h
    · cases h

/-- Purging only takes away, and only what lies at or below the place that the directory of
single-file output leads to. The place itself goes only when it bears the reserved name, so what a
link of that name leads to stays. -/
theorem purge_changes (htarget : Path.IsSegment s.singleFileTarget.toList)
    (hseparator : s.pathSeparator ∉ s.singleFileTarget.toList) {place : Location}
    (h : (purge t target projectDir s).1.node? place ≠ t.node? place) :
    (purge t target projectDir s).1.node? place = none ∧
      ∃ dir top, intermediateDir? target projectDir s = some dir ∧
        t.find dir false = .ok ⟨top, some .directory⟩ ∧ FileTree.isWithin top place = true ∧
        (place = top → top.getLast? = some s.singleFileTarget) := by
  rw [purge_fst] at h ⊢
  cases hdir : intermediateDir? target projectDir s with
  | none => simp [hdir] at h
  | some dir =>
    rw [hdir] at h
    obtain ⟨relative, hjoin, hrelative⟩ := exists_relative_of_intermediateDir? hseparator hdir
    -- The path ends with a separator, so it is followed into a directory.
    have hends : dir.EndsWith s.singleFileTarget.toList := hjoin ▸ hrelative.join projectDir
    have hnames := hends.getLast?_namesOf htarget
    rw [String.ofList_toList] at hnames
    have hne : FileTree.namesOf dir ≠ [] := by
      intro hnil
      rw [hnil] at hnames
      cases hnames
    obtain ⟨hgone, top, hfind, hwithin, htop⟩ :=
      FileTree.removeTree_changes_of_asksDirectory hends.asksDirectory hne h
    exact ⟨hgone, dir, top, rfl, hfind, hwithin, fun heq => (htop heq).trans hnames⟩

/-- Purging stays in single-file output. A text names a directory exactly when a line that mentions
the field holds the segment of single-file output between quotes. That directory is resolved against
the project directory, and its last component is the reserved name. In the tree, purging takes away
only what lies at or below the place that the directory leads to; the place itself goes only when it
bears the reserved name, so what a link of that name leads to stays. -/
theorem purge_confined (target : List Char) (projectDir : Path) (s : Settings)
    (htarget : Path.IsSegment s.singleFileTarget.toList)
    (hseparator : s.pathSeparator ∉ s.singleFileTarget.toList) :
    ((intermediateDir? target projectDir s).isSome = true ↔
        ∃ line ∈ lines target, s.intermediateField.toList <:+: line ∧
          HoldsSegment s.channelSegment line) ∧
      (∀ dir, intermediateDir? target projectDir s = some dir →
        dir.components.getLast? = some (.named s.singleFileTarget) ∧
          ∃ relative : Path, dir = projectDir.join relative ∧
            relative.components.getLast? = some (.named s.singleFileTarget)) ∧
      ∀ t : FileTree,
        (∀ dir, (purge t target projectDir s).2 = some dir →
          intermediateDir? target projectDir s = some dir) ∧
        ∀ place, (purge t target projectDir s).1.node? place ≠ t.node? place →
          (purge t target projectDir s).1.node? place = none ∧
            ∃ dir top, intermediateDir? target projectDir s = some dir ∧
              t.find dir false = .ok ⟨top, some .directory⟩ ∧
              FileTree.isWithin top place = true ∧
              (place = top → top.getLast? = some s.singleFileTarget) := by
  have hlast {p : Path} (h : p.EndsWith s.singleFileTarget.toList) :
      p.components.getLast? = some (.named s.singleFileTarget) := by
    rw [h.getLast?_components htarget, String.ofList_toList]
  refine ⟨intermediateDir?_isSome_iff, fun dir hdir => ?_, fun t =>
    ⟨fun dir => intermediateDir?_of_purge_snd, fun place => purge_changes htarget hseparator⟩⟩
  obtain ⟨relative, rfl, hrelative⟩ := exists_relative_of_intermediateDir? hseparator hdir
  exact ⟨hlast (hrelative.join projectDir), relative, rfl, hlast hrelative⟩

/-- The output of an earlier single-file build is removed with its directory. -/
theorem purge_confined_sample :
    let target := ".Intermediate = '..\\out\\int\\CompileSingleFile\\Engine\\'".toList
    let output := ["out", "int", "CompileSingleFile"]
    let tree : FileTree :=
      { nodes := [(["proj"], .directory), (["out"], .directory), (["out", "int"], .directory),
          (["out", "int", "Game"], .directory), (output, .directory),
          (output ++ ["Engine"], .directory)] }
    let purged := (purge tree target ⟨"/proj"⟩ {}).1
    purged.node? output ≠ tree.node? output ∧
      ∃ dir top, intermediateDir? target ⟨"/proj"⟩ {} = some dir ∧
        tree.find dir false = .ok ⟨top, some .directory⟩ ∧
        FileTree.isWithin top output = true ∧
        (output = top → top.getLast? = some "CompileSingleFile") := by
  intro target output tree purged
  have hstood : (tree.node? output).isSome = true := by decide
  have hgone : (purged.node? output).isNone = true := by decide +kernel
  have hchanged : purged.node? output ≠ tree.node? output := by
    intro heq
    rw [Option.isNone_iff_eq_none.1 hgone] at heq
    rw [← heq] at hstood
    cases hstood
  obtain ⟨-, -, htree⟩ := purge_confined target ⟨"/proj"⟩ {}
    ⟨by decide, by decide, by decide, by decide⟩ (by decide)
  exact ⟨hchanged, ((htree tree).2 output hchanged).2⟩

end SingleFile

end SoloBuild
