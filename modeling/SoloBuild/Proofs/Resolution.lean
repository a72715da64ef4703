import Mathlib.Data.List.Basic
import SoloBuild.FileTree.Files

/-!
# Where paths lead

Following a path is a search with a budget of links. This module says as rules what it finds, so
that facts about paths are inductions over the names and links that were followed. Removing a tree
asks twice where its path leads, the second time when everything below is gone; the rules tell that
both answers name one place.

## Key results

- `walk_eq_ok_iff`: following a path is following the rules
- `Leads.mono`, `Leads.concat_dot`: a directory that is found stays found in a larger tree, and when
  a separator is written after its path
- `Leads.node?_eq_directory`: a path with a separator at its end leads to directories only
- `Leads.getLast?_location`: a directory found under a name bears it
- `removeTree_changes`: removing a tree touches nothing but what is at or below the place it finds
-/

namespace SoloBuild.FileTree

/-! ## The rules -/

/-- A name that is looked up in a directory. -/
structure IsName (name : String) : Prop where
  ne_dot : name ≠ "."
  ne_dots : name ≠ ".."
  short : name.utf8ByteSize ≤ nameLimit

/-- Following names from a directory, through at most so many links, leads to a place. -/
inductive Leads (t : FileTree) (followLast : Bool) :
    (links : Nat) → (here : Location) → (names : List String) → Place → Prop where
  | here (links : Nat) (here : Location) : Leads t followLast links here [] ⟨here, t.node? here⟩
  | stay {links : Nat} {here : Location} {rest : List String} {place : Place}
      (hdir : t.node? here = some .directory) (hrest : Leads t followLast links here rest place) :
      Leads t followLast links here ("." :: rest) place
  | up {links : Nat} {here : Location} {rest : List String} {place : Place}
      (hdir : t.node? here = some .directory)
      (hrest : Leads t followLast links here.dropLast rest place) :
      Leads t followLast links here (".." :: rest) place
  /-- The last name may be missing. -/
  | missing {links : Nat} {here : Location} {name : String}
      (hdir : t.node? here = some .directory) (hname : IsName name)
      (hnone : t.node? (here ++ [name]) = none) :
      Leads t followLast links here [name] ⟨here ++ [name], none⟩
  /-- A link at the end may stand for itself. -/
  | link {links : Nat} {here : Location} {name : String} {target : Path}
      (hdir : t.node? here = some .directory) (hname : IsName name)
      (hlink : t.node? (here ++ [name]) = some (.link target)) (hlast : followLast = false) :
      Leads t followLast links here [name] ⟨here ++ [name], some (.link target)⟩
  /-- Any other link stands for its target. -/
  | follow {links : Nat} {here : Location} {name : String} {rest : List String} {target : Path}
      {place : Place} (hdir : t.node? here = some .directory) (hname : IsName name)
      (hlink : t.node? (here ++ [name]) = some (.link target))
      (hlast : rest = [] → followLast = true)
      (hrest : Leads t followLast links (if target.isAbsolute then [] else here)
        (target.steps ++ rest) place) :
      Leads t followLast (links + 1) here (name :: rest) place
  | enter {links : Nat} {here : Location} {name : String} {rest : List String} {node : Node}
      {place : Place} (hdir : t.node? here = some .directory) (hname : IsName name)
      (hnode : t.node? (here ++ [name]) = some node) (hlink : ∀ target, node ≠ .link target)
      (hrest : Leads t followLast links (here ++ [name]) rest place) :
      Leads t followLast links here (name :: rest) place

variable {t : FileTree} {followLast : Bool} {links : Nat} {here : Location} {name : String}
  {names rest : List String} {place : Place}

/-- How the search goes on from a link with so many links left. -/
def onward (t : FileTree) (followLast : Bool) :
    Nat → Location → Path → List String → Except OsError Place
  | 0 => fun _ _ _ => .error .tooManyLinks
  | links + 1 => fun here target rest =>
    t.walk followLast links (if target.isAbsolute then [] else here) (target.steps ++ rest)

theorem walk_eq_walkFrom (t : FileTree) (followLast : Bool) (links : Nat) :
    t.walk followLast links = walkFrom t followLast (t.onward followLast links) := by
  cases links <;> rfl

/-! ## Following a path is following the rules -/

/-- One name of a path, looked up in a directory. -/
theorem walk_name (hdir : t.node? here = some .directory) (hname : IsName name) :
    t.walk followLast links here (name :: rest) =
      match t.node? (here ++ [name]) with
      | none => if rest.isEmpty then .ok ⟨here ++ [name], none⟩ else .error .notFound
      | some (.link target) =>
        if rest.isEmpty && !followLast then .ok ⟨here ++ [name], some (.link target)⟩
        else t.onward followLast links here target rest
      | some _ => t.walk followLast links (here ++ [name]) rest := by
  have hshort : ¬ nameLimit < name.utf8ByteSize := Nat.not_lt.2 hname.short
  rw [walk_eq_walkFrom, walkFrom, hdir]
  exact (if_neg hname.ne_dot).trans ((if_neg hname.ne_dots).trans (if_neg hshort))

theorem walk_nil : t.walk followLast links here [] = .ok ⟨here, t.node? here⟩ := by
  rw [walk_eq_walkFrom, walkFrom]

theorem walk_dot (hdir : t.node? here = some .directory) :
    t.walk followLast links here ("." :: rest) = t.walk followLast links here rest := by
  rw [walk_eq_walkFrom, walkFrom, hdir]
  rfl

theorem walk_dots (hdir : t.node? here = some .directory) :
    t.walk followLast links here (".." :: rest) = t.walk followLast links here.dropLast rest := by
  rw [walk_eq_walkFrom, walkFrom, hdir]
  rfl

/-- Where the rules lead, the search arrives. -/
theorem Leads.walk_eq (h : Leads t followLast links here names place) :
    t.walk followLast links here names = .ok place := by
  induction h with
  | here links here => exact walk_nil
  | stay hdir hrest ih => rw [walk_dot hdir, ih]
  | up hdir hrest ih => rw [walk_dots hdir, ih]
  | missing hdir hname hnone => rw [walk_name hdir hname, hnone]; rfl
  | link hdir hname hlink hlast => rw [walk_name hdir hname, hlink]; simp [hlast]
  | @follow links here name rest target place hdir hname hlink hlast hrest ih =>
    have hgoes : ¬ (rest.isEmpty && !followLast) = true := by
      simpa using hlast
    rw [walk_name hdir hname, hlink]
    simp only [if_neg hgoes, onward, ih]
  | enter hdir hname hnode hlink hrest ih =>
    -- The name is there, and is no link.
    rw [walk_name hdir hname, hnode]
    split
    · contradiction
    · rename_i target heq
      exact absurd (Option.some.inj heq) (hlink target)
    · exact ih

/-- Names are followed from a directory, and a name that is too long leads nowhere. -/
theorem directory_of_walk_cons (h : t.walk followLast links here (name :: rest) = .ok place) :
    t.node? here = some .directory ∧ (name = "." ∨ name = ".." ∨ IsName name) := by
  rw [walk_eq_walkFrom, walkFrom] at h
  split at h
  · rename_i hdir
    refine ⟨hdir, ?_⟩
    by_cases hdot : name = "."
    · exact .inl hdot
    · by_cases hdots : name = ".."
      · exact .inr (.inl hdots)
      · rw [if_neg hdot, if_neg hdots] at h
        split at h
        · cases h
        · rename_i hshort
          exact .inr (.inr ⟨hdot, hdots, Nat.not_lt.1 hshort⟩)
  · cases h

/-- Where the search arrives with a name looked up, the rules lead, when they do so for the names
after it and for the links it can meet. -/
theorem leads_of_walk_name (hdir : t.node? here = some .directory) (hname : IsName name)
    (ihRest : ∀ here, t.walk followLast links here rest = .ok place →
      Leads t followLast links here rest place)
    (ihLinks : ∀ fewer < links, ∀ here names, t.walk followLast fewer here names = .ok place →
      Leads t followLast fewer here names place)
    (h : t.walk followLast links here (name :: rest) = .ok place) :
    Leads t followLast links here (name :: rest) place := by
  rw [walk_name hdir hname] at h
  split at h
  · rename_i hnone
    split at h
    · rename_i hlast
      cases h
      rw [List.isEmpty_iff.1 hlast]
      exact .missing hdir hname hnone
    · cases h
  · rename_i target hlink
    split at h
    · rename_i hlast
      rw [Bool.and_eq_true, List.isEmpty_iff, Bool.not_eq_true'] at hlast
      cases h
      rw [hlast.1]
      exact .link hdir hname hlink hlast.2
    · rename_i hlast
      cases links with
      | zero => cases h
      | succ links =>
        have hgoes : rest = [] → followLast = true := by simpa using hlast
        exact .follow hdir hname hlink hgoes (ihLinks links (Nat.lt_succ_self links) _ _ h)
  · rename_i node hlink hnode
    exact .enter hdir hname hnode hlink (ihRest _ h)

/-- Where the search arrives, the rules lead. -/
theorem leads_of_walk (h : t.walk followLast links here names = .ok place) :
    Leads t followLast links here names place := by
  -- A link starts over with one link less, any other name leaves fewer names.
  induction links using Nat.strongRecOn generalizing here names with
  | _ links ihLinks =>
  induction names generalizing here with
  | nil =>
    rw [walk_nil] at h
    cases h
    exact .here links here
  | cons name rest ih =>
    obtain ⟨hdir, rfl | rfl | hname⟩ := directory_of_walk_cons h
    · rw [walk_dot hdir] at h
      exact .stay hdir (ih h)
    · rw [walk_dots hdir] at h
      exact .up hdir (ih h)
    · exact leads_of_walk_name hdir hname (fun _ hrest => ih hrest)
        (fun fewer hfewer _ _ hlink => ihLinks fewer hfewer hlink) h

/-- Following a path is following the rules. -/
theorem walk_eq_ok_iff :
    t.walk followLast links here names = .ok place ↔ Leads t followLast links here names place :=
  ⟨leads_of_walk, Leads.walk_eq⟩

namespace Leads

/-! ## Directories that are found -/

/-- What is found in a tree is found at the same place in a larger one. -/
theorem mono {larger : FileTree}
    (hsub : ∀ place node, t.node? place = some node → larger.node? place = some node)
    (h : Leads t followLast links here names place) (hsome : place.node? ≠ none) :
    Leads larger followLast links here names place := by
  -- Only what is missing could be found in the larger tree and not in this one.
  induction h with
  | here links here =>
    obtain ⟨node, hnode⟩ := Option.ne_none_iff_exists'.1 hsome
    have hlarger : t.node? here = larger.node? here := hnode.trans (hsub here node hnode).symm
    rw [hlarger]
    exact .here links here
  | stay hdir _ ih => exact .stay (hsub _ _ hdir) (ih hsome)
  | up hdir _ ih => exact .up (hsub _ _ hdir) (ih hsome)
  | missing => exact absurd rfl hsome
  | link hdir hname hlink hlast => exact .link (hsub _ _ hdir) hname (hsub _ _ hlink) hlast
  | follow hdir hname hlink hlast _ ih =>
    exact .follow (hsub _ _ hdir) hname (hsub _ _ hlink) hlast (ih hsome)
  | enter hdir hname hnode hlink _ ih =>
    exact .enter (hsub _ _ hdir) hname (hsub _ _ hnode) hlink (ih hsome)

/-- A directory that is found is found again when a `.` is written after its path. -/
theorem concat_dot (h : Leads t followLast links here names place)
    (hplace : place.node? = some .directory) :
    Leads t followLast links here (names ++ ["."]) place := by
  induction h with
  | here links here => exact .stay hplace (.here links here)
  | stay hdir _ ih => exact .stay hdir (ih hplace)
  | up hdir _ ih => exact .up hdir (ih hplace)
  | missing => cases hplace
  | link => cases hplace
  | follow hdir hname hlink hlast _ ih =>
    have hrest := ih hplace
    rw [List.append_assoc] at hrest
    exact .follow hdir hname hlink (fun hnil => absurd hnil (by simp)) hrest
  | enter hdir hname hnode hlink _ ih => exact .enter hdir hname hnode hlink (ih hplace)

/-- The last name of a path is followed from some directory. -/
theorem exists_last {last : String} (h : Leads t followLast links here names place)
    (hlast : names.getLast? = some last) :
    ∃ fewer dir, Leads t followLast fewer dir [last] place := by
  induction h with
  | here => cases hlast
  | @stay links here rest place hdir hrest ih =>
    by_cases hnil : rest = []
    · subst hnil
      cases hlast
      exact ⟨links, here, .stay hdir hrest⟩
    · exact ih (by rwa [List.getLast?_cons_of_ne_nil hnil] at hlast)
  | @up links here rest place hdir hrest ih =>
    by_cases hnil : rest = []
    · subst hnil
      cases hlast
      exact ⟨links, here, .up hdir hrest⟩
    · exact ih (by rwa [List.getLast?_cons_of_ne_nil hnil] at hlast)
  | @missing links here name hdir hname hnone =>
    cases hlast
    exact ⟨links, here, .missing hdir hname hnone⟩
  | @link links here name target hdir hname hlink hgoes =>
    cases hlast
    exact ⟨links, here, .link hdir hname hlink hgoes⟩
  | @follow links here name rest target place hdir hname hlink hgoes hrest ih =>
    by_cases hnil : rest = []
    · subst hnil
      cases hlast
      exact ⟨links + 1, here, .follow hdir hname hlink hgoes hrest⟩
    · -- The target of the link comes before the names that are left.
      refine ih ?_
      rwa [List.getLast?_append_of_ne_nil _ hnil, ← List.getLast?_cons_of_ne_nil hnil]
  | @enter links here name rest node place hdir hname hnode hlink hrest ih =>
    by_cases hnil : rest = []
    · subst hnil
      cases hlast
      exact ⟨links, here, .enter hdir hname hnode hlink hrest⟩
    · exact ih (by rwa [List.getLast?_cons_of_ne_nil hnil] at hlast)

/-- A path that ends with a `.` leads to directories only. -/
theorem node?_eq_directory (h : Leads t followLast links here names place)
    (hlast : names.getLast? = some ".") : place.node? = some .directory := by
  obtain ⟨fewer, dir, hdot⟩ := h.exists_last hlast
  -- A `.` is never looked up, so it was not entered but stayed at.
  generalize hname : "." = name at hdot
  cases hdot with
  | stay hdir hrest =>
    cases hrest
    exact hdir
  | up => exact absurd hname (by decide)
  | missing _ hlooked => exact absurd hname.symm hlooked.ne_dot
  | link _ hlooked => exact absurd hname.symm hlooked.ne_dot
  | follow _ hlooked => exact absurd hname.symm hlooked.ne_dot
  | enter _ hlooked => exact absurd hname.symm hlooked.ne_dot

/-- A directory that is found under a name, without following a link there, bears that name. -/
theorem getLast?_location {last : String} (h : Leads t false links here names place)
    (hlast : names.getLast? = some last) (hdot : last ≠ ".") (hdots : last ≠ "..")
    (hplace : place.node? = some .directory) : place.location.getLast? = some last := by
  obtain ⟨fewer, dir, hname⟩ := h.exists_last hlast
  -- A link at the end is not followed, so the name was entered from the directory it is in.
  cases hname with
  | stay => exact absurd rfl hdot
  | up => exact absurd rfl hdots
  | missing => cases hplace
  | link => cases hplace
  | follow _ _ _ hgoes => cases hgoes rfl
  | enter _ _ _ _ hrest =>
    cases hrest
    exact List.getLast?_concat

end Leads

/-! ## Removing a tree -/

theorem walk_of_find {p : Path} (h : t.find p followLast = .ok place) :
    t.walk followLast linkLimit (t.start p) p.steps = .ok place := by
  rw [find] at h
  split at h
  · cases h
  · split at h
    · cases h
    · split at h
      · cases h
      · exact h

/-- What is in a tree after erasing below a place was in it before. -/
theorem node?_of_eraseBelow {top other : Location} {node : Node}
    (h : (t.eraseBelow top).node? other = some node) : t.node? other = some node := by
  by_cases hroot : other = []
  · rw [hroot] at h ⊢
    exact h
  · rw [node?_eraseBelow hroot] at h
    split at h
    · cases h
    · exact h

/-- The names a path consists of. -/
def namesOf (p : Path) : List String :=
  (p.segments.filter fun segment => !segment.isEmpty).map String.ofList

/-- A separator at the end of a path is followed as a `.`. -/
theorem steps_eq_of_asksDirectory {p : Path} (hsep : asksDirectory p = true)
    (hnames : namesOf p ≠ []) : p.steps = namesOf p ++ ["."] := by
  have hsegments : (p.segments.filter fun segment => !segment.isEmpty).isEmpty = false := by
    simpa [namesOf, List.isEmpty_eq_false_iff] using hnames
  rw [asksDirectory] at hsep
  simp only [Path.steps, hsegments, hsep, namesOf]
  rfl

/-- An empty directory that can be removed under a path is found by its names, the last of which is
neither `.` nor `..`. -/
theorem exists_walk_of_removalError? {p : Path} (h : t.removalError? p = none) :
    ∃ last top, (namesOf p).getLast? = some last ∧ last ≠ "." ∧ last ≠ ".." ∧
      t.walk false linkLimit (t.start p) (namesOf p) = .ok ⟨top, some .directory⟩ := by
  rw [removalError?] at h
  split at h
  · cases h
  · rename_i last hlast
    split at h
    · cases h
    · rename_i hdot
      split at h
      · cases h
      · rename_i hdots
        -- The path compares its last segment, and is followed by the text of it.
        have hname : ∀ cs : List Char, last ≠ cs → String.ofList last ≠ String.ofList cs :=
          fun cs hne heq => hne (String.ofList_injective heq)
        have hlast' : (namesOf p).getLast? = some (String.ofList last) := by
          rw [namesOf, List.getLast?_map, hlast]
          rfl
        split at h
        · cases h
        · rename_i top hwalk
          exact ⟨String.ofList last, top, hlast', hname _ hdot, hname _ hdots, hwalk⟩
        · cases h
        · cases h

/-- Removing a directory removes what is below it, and the directory when it can be removed then. -/
theorem removeTree_directory {p : Path} {top : Location}
    (hfind : t.find p false = .ok ⟨top, some .directory⟩) :
    (t.removeTree p).1 =
      if (t.eraseBelow top).removalError? p = none then (t.eraseBelow top).erase top
      else t.eraseBelow top := by
  rw [removeTree, hfind]
  dsimp only
  split
  · rename_i hremoval
    rw [hremoval]; rfl
  · rename_i hremoval
    rw [hremoval]; rfl
  · rename_i hremoval
    rw [hremoval]; rfl

/-- Removing a tree only takes away, and only what is at or below the place that its path leads to.
A directory there goes with its content only when it can be removed once it is empty. -/
theorem removeTree_changes {p : Path} {other : Location}
    (h : (t.removeTree p).1.node? other ≠ t.node? other) :
    (t.removeTree p).1.node? other = none ∧
      ∃ top node, t.find p false = .ok ⟨top, some node⟩ ∧ isWithin top other = true ∧
        (node = .directory → other = top → (t.eraseBelow top).removalError? p = none) := by
  have hroot : other ≠ [] := by
    rintro rfl
    exact h rfl
  match hfind : t.find p false with
  | .error e => simp [removeTree, hfind] at h
  | .ok ⟨top, none⟩ => simp [removeTree, hfind] at h
  | .ok ⟨top, some (.file content executable)⟩ => simp [removeTree, hfind] at h
  | .ok ⟨top, some (.program name)⟩ => simp [removeTree, hfind] at h
  | .ok ⟨top, some (.link target)⟩ =>
    have htree : (t.removeTree p).1 = t.erase top := by rw [removeTree, hfind]
    rw [htree, node?_erase hroot] at h ⊢
    by_cases hwithin : isWithin top other = true
    · exact ⟨if_pos hwithin, top, _, rfl, hwithin, nofun⟩
    · rw [if_neg hwithin] at h
      exact absurd rfl h
  | .ok ⟨top, some .directory⟩ =>
    rw [removeTree_directory hfind] at h ⊢
    by_cases hwithin : isWithin top other = true
    · by_cases hremoval : (t.eraseBelow top).removalError? p = none
      · rw [if_pos hremoval, node?_erase hroot, if_pos hwithin]
        exact ⟨rfl, top, _, rfl, hwithin, fun _ _ => hremoval⟩
      · rw [if_neg hremoval, node?_eraseBelow hroot] at h ⊢
        by_cases htop : other = top
        · -- The directory stays when it cannot be removed.
          rw [if_neg fun hboth => hboth.2 htop] at h
          exact absurd rfl h
        · exact ⟨if_pos ⟨hwithin, htop⟩, top, _, rfl, hwithin, fun _ heq => absurd heq htop⟩
    · -- Outside nothing changes, whether or not the directory itself goes.
      split at h
      · rw [node?_erase hroot, if_neg hwithin, node?_eraseBelow hroot,
          if_neg fun hboth => hwithin hboth.1] at h
        exact absurd rfl h
      · rw [node?_eraseBelow hroot, if_neg fun hboth => hwithin hboth.1] at h
        exact absurd rfl h

/-- A directory that is removed under a path with a separator at its end bears the last name of the
path: no link was followed to it. -/
theorem getLast?_of_removalError? {p : Path} {top : Location} {node : Option Node}
    (hsep : asksDirectory p = true) (hfind : t.find p false = .ok ⟨top, node⟩)
    (hremoval : (t.eraseBelow top).removalError? p = none) :
    top.getLast? = (namesOf p).getLast? := by
  obtain ⟨last, top', hlast, hdot, hdots, hwalk⟩ := exists_walk_of_removalError? hremoval
  have hnames : namesOf p ≠ [] := by
    intro hnil
    rw [hnil] at hlast
    cases hlast
  -- What the names lead to in the emptied tree is what the path leads to in the whole tree.
  have hemptied : Leads t false linkLimit (t.start p) (namesOf p) ⟨top', some .directory⟩ :=
    (walk_eq_ok_iff.1 hwalk).mono (fun _ _ => node?_of_eraseBelow) (by simp)
  have hagain := walk_eq_ok_iff.2 (hemptied.concat_dot rfl)
  rw [← steps_eq_of_asksDirectory hsep hnames, walk_of_find hfind] at hagain
  have htop : top = top' := congrArg Place.location (Except.ok.inj hagain)
  rw [hlast, htop]
  exact hemptied.getLast?_location hlast hdot hdots rfl

/-- Removing a tree under a path with a separator at its end touches a directory and what is below
it. The directory itself goes only when it bears the last name of the path. -/
theorem removeTree_changes_of_asksDirectory {p : Path} {other : Location}
    (hsep : asksDirectory p = true) (hnames : namesOf p ≠ [])
    (h : (t.removeTree p).1.node? other ≠ t.node? other) :
    (t.removeTree p).1.node? other = none ∧
      ∃ top, t.find p false = .ok ⟨top, some .directory⟩ ∧ isWithin top other = true ∧
        (other = top → top.getLast? = (namesOf p).getLast?) := by
  obtain ⟨hgone, top, node, hfind, hwithin, hremoval⟩ := removeTree_changes h
  have hleads := walk_eq_ok_iff.1 (walk_of_find hfind)
  have hlast : p.steps.getLast? = some "." := by
    rw [steps_eq_of_asksDirectory hsep hnames, List.getLast?_concat]
  obtain rfl : node = .directory := Option.some.inj (hleads.node?_eq_directory hlast)
  exact ⟨hgone, top, hfind, hwithin,
    fun heq => getLast?_of_removalError? hsep hfind (hremoval rfl heq)⟩

end SoloBuild.FileTree
