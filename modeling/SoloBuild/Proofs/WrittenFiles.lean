import SoloBuild.Proofs.PrepareFrame

/-!
# Files that were written

A file is written where its path leads, and is read under the same path: between the two the path is
followed again, in a tree that holds one file more. This module says that it leads to the same place
then, and what keeps a file that was written from being lost when a directory is purged.

A tree can be any list of places; in one that a file system can hold, everything stands in a
directory. That is kept by all that is done to files here.

## Key results

- `Consistent.writeText`, `Consistent.removeTree`: what stands in a directory goes on to do so
- `Leads.of_end`: a path leads to whatever is put at the end of it
- `find_of_writeText`, `readText_of_writeText`: a file that was written is found and read back
- `readText_purge`: a file is left by a purge of a directory that does not hold it
-/

namespace SoloBuild.FileTree

variable {t written : FileTree} {followLast : Bool} {links : Nat} {here place : Location}
  {names : List String} {found : Place} {p : Path} {node : Node}

/-! ## Consistent trees -/

/-- Everything in the tree stands in a directory, and the working directory is no link. -/
structure Consistent (t : FileTree) : Prop where
  parent : ∀ place node, t.node? place = some node → t.node? place.dropLast = some .directory
  workingDir : ∀ target, t.node? t.workingDir ≠ some (.link target)

/-- A tree is consistent when each of its entries stands in a directory. -/
theorem Consistent.of_nodes
    (hnodes : ∀ entry ∈ t.nodes, (t.node? entry.1.dropLast).any Node.isDirectory = true)
    (hdir : (t.node? t.workingDir).all Node.isDirectory = true) : t.Consistent := by
  have hdirectory : ∀ node : Node, node.isDirectory = true → node = .directory := by
    intro node hnode
    cases node <;> first | rfl | cases hnode
  refine ⟨fun place node hnode => ?_, fun target hlink => ?_⟩
  -- Whatever is at a place but the root is one of the entries.
  · by_cases hroot : place = []
    · rw [hroot]
      rfl
    · rw [node?, if_neg hroot] at hnode
      obtain ⟨_, _, hsplit, _⟩ := List.lookup_eq_some_iff.1 hnode
      have hmem : (place, node) ∈ t.nodes := by
        rw [hsplit]
        exact List.mem_append_right _ List.mem_cons_self
      obtain ⟨parent, hparent, hparentDir⟩ := (Option.any_eq_true _ _).1 (hnodes _ hmem)
      rw [hparent, hdirectory parent hparentDir]
  · rw [hlink] at hdir
    cases hdir

theorem node?_put_of_ne {other : Location} (hne : other ≠ place) :
    (t.put place node).node? other = t.node? other := by
  by_cases hroot : other = []
  · rw [hroot]
    rfl
  · rw [node?_put hroot, if_neg hne]

theorem node?_put_self (hroot : place ≠ []) : (t.put place node).node? place = some node := by
  rw [node?_put hroot, if_pos rfl]

/-! ## Where paths lead in consistent trees -/

/-- Names are followed from a directory. -/
theorem Leads.directory (h : Leads t followLast links here names found) (hnames : names ≠ []) :
    t.node? here = some .directory := by
  cases h with
  | here => exact absurd rfl hnames
  | stay hdir | up hdir | missing hdir | link hdir | follow hdir | enter hdir => exact hdir

/-- A path leads into a directory. -/
theorem Consistent.parent_of_leads (hc : t.Consistent)
    (h : Leads t followLast links here names found)
    (hhere : t.node? here.dropLast = some .directory) :
    t.node? found.location.dropLast = some .directory := by
  induction h with
  | here => exact hhere
  | stay _ _ ih => exact ih hhere
  | up _ _ ih => exact ih (hc.parent _ _ hhere)
  | missing hdir =>
    rw [List.dropLast_concat]
    exact hdir
  | link hdir =>
    rw [List.dropLast_concat]
    exact hdir
  -- A link leads on from the root, or from the directory it stands in.
  | follow hdir _ _ _ _ ih =>
    refine ih ?_
    split
    · rfl
    · exact hhere
  | enter hdir _ _ _ _ ih =>
    refine ih ?_
    rw [List.dropLast_concat]
    exact hdir

/-- A path whose last link is followed leads to no link. -/
theorem Consistent.not_link_of_leads (hc : t.Consistent)
    (h : Leads t true links here names found) (hhere : ∀ target, t.node? here ≠ some (.link target))
    (target : Path) : found.node? ≠ some (.link target) := by
  induction h with
  | here => exact hhere target
  | stay _ _ ih => exact ih hhere
  | up hdir _ ih =>
    refine ih fun target => ?_
    rw [hc.parent _ _ hdir]
    exact nofun
  | missing => exact nofun
  | link _ _ _ hlast => cases hlast
  | follow hdir _ _ _ _ ih =>
    refine ih fun target => ?_
    split
    · exact nofun
    · rw [hdir]
      exact nofun
  | enter _ _ hnode hlink _ ih =>
    refine ih fun target => ?_
    rw [hnode]
    exact fun heq => hlink target (Option.some.inj heq)

/-- Where directories and links stay, a path leads to the place that it led to, whatever stands
there and is no link. -/
theorem Leads.of_end {after : FileTree} (h : Leads t true links here names found)
    (hdirectory : ∀ other, t.node? other = some .directory → after.node? other = some .directory)
    (hlink : ∀ other target, t.node? other = some (.link target) →
      after.node? other = some (.link target))
    (hnode : ∀ target, node ≠ .link target) (hend : after.node? found.location = some node)
    (hrest : ∀ other, other ≠ found.location → after.node? other = t.node? other) :
    Leads after true links here names ⟨found.location, some node⟩ := by
  induction h with
  | here links here =>
    rw [← hend]
    exact .here links here
  | stay hdir _ ih => exact .stay (hdirectory _ hdir) (ih hend hrest)
  | up hdir _ ih => exact .up (hdirectory _ hdir) (ih hend hrest)
  -- What was missing is entered now.
  | missing hdir hname =>
    refine .enter (hdirectory _ hdir) hname hend hnode ?_
    rw [← hend]
    exact .here _ _
  | link _ _ _ hlast => cases hlast
  | follow hdir hname htarget hgoes _ ih =>
    exact .follow (hdirectory _ hdir) hname (hlink _ _ htarget) hgoes (ih hend hrest)
  | @enter links here name rest passed found hdir hname hpassed hnotLink _ ih =>
    by_cases hplace : here ++ [name] = found.location
    · exact .enter (hdirectory _ hdir) hname (hplace ▸ hend) hnode (ih hend hrest)
    · exact .enter (hdirectory _ hdir) hname ((hrest _ hplace).trans hpassed) hnotLink
        (ih hend hrest)

/-! ## Writing and reading back -/

theorem exists_find_of_placeToWrite (h : t.placeToWrite p = .ok place) :
    ∃ node?, t.find p true = .ok ⟨place, node?⟩ ∧ node? ≠ some .directory := by
  rw [placeToWrite] at h
  split at h
  · split at h <;> cases h
  · split at h
    · cases h
    · cases h
    · cases h
    · rename_i node? hdirectory _ hfind
      cases h
      exact ⟨node?, hfind, hdirectory⟩

/-- A path starts at a directory, or at the working directory. -/
theorem Consistent.not_link_start (hc : t.Consistent) (p : Path) (target : Path) :
    t.node? (t.start p) ≠ some (.link target) := by
  rw [start]
  split
  · simp
  · exact hc.workingDir target

/-- A path that is followed by nothing leads to the root. -/
theorem location_of_steps (h : t.find p followLast = .ok found) (hsteps : p.steps = []) :
    found.location = [] := by
  have htext : p.text.toList ≠ [] := by
    intro hnil
    have hempty : p.text.isEmpty = true := by simpa using hnil
    rw [find, hempty] at h
    split at h <;> cases h
  have hnames : namesOf p = [] := (List.append_eq_nil_iff.1 hsteps).1
  have hstart : t.start p = [] := if_pos (isAbsolute_of_namesOf htext hnames)
  have hleads := walk_of_find h
  rw [hsteps, hstart, walk_nil] at hleads
  cases hleads
  rfl

/-- A path that leads somewhere leads into a directory. -/
theorem Consistent.parent_of_find (hc : t.Consistent) (h : t.find p followLast = .ok found) :
    t.node? found.location.dropLast = some .directory := by
  by_cases hsteps : p.steps = []
  · rw [location_of_steps h hsteps]
    rfl
  · have hleads := walk_eq_ok_iff.1 (walk_of_find h)
    exact hc.parent_of_leads hleads (hc.parent _ _ (hleads.directory hsteps))

/-- The path that a file was written under leads to the file. -/
theorem find_of_writeText (hc : t.Consistent) {text : String}
    (hplace : t.placeToWrite p = .ok place) (h : t.writeText p text = .ok written) :
    written.find p true = .ok ⟨place, some (.file text.toUTF8 (t.isExecutableAt place))⟩ := by
  obtain ⟨place', hplace', rfl⟩ := writeText_eq_ok_iff.1 h
  obtain rfl : place' = place := Except.ok.inj (hplace'.symm.trans hplace)
  obtain ⟨node?, hfind, hdir⟩ := exists_find_of_placeToWrite hplace
  have hleads := walk_eq_ok_iff.1 (walk_of_find hfind)
  have hlink := hc.not_link_of_leads hleads (hc.not_link_start p)
  have hnode : node? = t.node? place' := hleads.node?_eq
  rw [hnode] at hdir hlink
  have hroot : place' ≠ [] := by
    rintro rfl
    exact hdir rfl
  -- Directories and links stand elsewhere.
  have hleads' : Leads (t.put place' (.file text.toUTF8 (t.isExecutableAt place'))) true linkLimit
      (t.start p) p.steps ⟨place', some (.file text.toUTF8 (t.isExecutableAt place'))⟩ := by
    refine hleads.of_end (fun other hother => ?_) (fun other target hother => ?_) nofun
      (node?_put_self hroot) fun other hne => node?_put_of_ne hne
    · rw [node?_put_of_ne (by rintro rfl; exact hdir hother), hother]
    · rw [node?_put_of_ne (by rintro rfl; exact hlink target hother), hother]
  exact find_of_walk hfind hleads'.walk_eq

/-- A file that was written is read back under the path it was written under. -/
theorem readText_of_writeText (hc : t.Consistent) {text : String}
    (h : t.writeText p text = .ok written) : written.readText p = .ok text := by
  obtain ⟨place, hplace, -⟩ := writeText_eq_ok_iff.1 h
  exact readText_of_node? (find_of_writeText hc hplace h)

/-- Writing a file keeps a tree consistent. -/
theorem Consistent.writeText (hc : t.Consistent) {text : String}
    (h : t.writeText p text = .ok written) : written.Consistent := by
  obtain ⟨place, hplace, rfl⟩ := writeText_eq_ok_iff.1 h
  obtain ⟨node?, hfind, hdir⟩ := exists_find_of_placeToWrite hplace
  have hnode : node? = t.node? place := node?_of_find hfind
  rw [hnode] at hdir
  have hroot : place ≠ [] := by
    rintro rfl
    exact hdir rfl
  have hparent := hc.parent_of_find hfind
  -- Nothing stands below the file, as it is written over no directory.
  have hstill : ∀ {other : Location}, t.node? other = some .directory →
      (t.put place (.file text.toUTF8 (t.isExecutableAt place))).node? other =
        some .directory := by
    intro other hother
    rw [node?_put_of_ne (by rintro rfl; exact hdir hother), hother]
  refine ⟨fun other node hnode => hstill ?_, fun target hlink => ?_⟩
  · by_cases hother : other = place
    · rw [hother]
      exact hparent
    · rw [node?_put_of_ne hother] at hnode
      exact hc.parent other node hnode
  · by_cases hplace : t.workingDir = place
    · rw [workingDir_put, hplace, node?_put_self hroot] at hlink
      cases hlink
    · rw [workingDir_put, node?_put_of_ne hplace] at hlink
      exact hc.workingDir target hlink

/-! ## Purging -/

/-- What is not below a directory that is removed, nor the directory itself, stays. -/
theorem node?_removeTree_of_outside {top other : Location}
    (hfind : t.find p false = .ok ⟨top, some .directory⟩)
    (hother : isWithin top other = false) : (t.removeTree p).1.node? other = t.node? other := by
  by_contra hchanged
  obtain ⟨_, top', _, hfind', hwithin, _⟩ := removeTree_changes hchanged
  cases hfind.symm.trans hfind'
  rw [hother] at hwithin
  cases hwithin

/-- Where removing a tree changes anything, nothing below the place that it finds is left. -/
theorem node?_removeTree_of_below {top changed other : Location}
    (hfind : t.find p false = .ok ⟨top, some node⟩)
    (hchanged : (t.removeTree p).1.node? changed ≠ t.node? changed)
    (hother : isWithin top other = true) (hne : other ≠ top) :
    (t.removeTree p).1.node? other = none := by
  have hroot : other ≠ [] := by
    rintro rfl
    exact hne (List.prefix_nil.1 (List.isPrefixOf_iff_prefix.1 hother)).symm
  cases node with
  | file | program => simp [removeTree, hfind] at hchanged
  | link =>
    have htree : (t.removeTree p).1 = t.erase top := by rw [removeTree, hfind]
    rw [htree, node?_erase hroot, if_pos hother]
  | directory =>
    have hbelow : (t.eraseBelow top).node? other = none := by
      rw [node?_eraseBelow hroot, if_pos ⟨hother, hne⟩]
    rw [removeTree_directory hfind]
    split
    · rw [node?_erase hroot, if_pos hother]
    · exact hbelow

/-- Removing a tree keeps a tree consistent. -/
theorem Consistent.removeTree (hc : t.Consistent) (p : Path) : (t.removeTree p).1.Consistent := by
  refine ⟨fun other node hnode => ?_, fun target hlink => ?_⟩
  · rw [← hc.parent other node (node?_of_removeTree hnode)]
    by_contra hchanged
    obtain ⟨_, top, _, hfind, hwithin, _⟩ := removeTree_changes hchanged
    -- What stands in the directory that is gone would be gone as well.
    have hparent := List.isPrefixOf_iff_prefix.1 hwithin
    have hother : isWithin top other = true :=
      List.isPrefixOf_iff_prefix.2 (hparent.trans (List.dropLast_prefix other))
    by_cases htop : other = top
    · have hlength := hparent.length_le
      rw [List.length_dropLast, htop] at hlength
      have hroot : other = [] := List.eq_nil_of_length_eq_zero (by rw [htop]; omega)
      rw [hroot] at hchanged
      exact hchanged rfl
    · rw [node?_removeTree_of_below hfind hchanged hother htop] at hnode
      cases hnode
  · rw [workingDir_removeTree] at hlink
    exact hc.workingDir target (node?_of_removeTree hlink)

/-- A text is read from something that is there. -/
theorem exists_find_of_readText {text : String} (h : t.readText p = .ok text) :
    ∃ place node, t.find p true = .ok ⟨place, some node⟩ := by
  cases hfind : t.find p true with
  | error => simp [readText, readBytes, hfind] at h
  | ok found =>
    obtain ⟨place, node?⟩ := found
    cases node? with
    | none => simp [readText, readBytes, hfind] at h
    | some node => exact ⟨place, node, rfl⟩

/-- The directory that a path leads to holds what another path leads to, or is passed by it: without
the directory that path leads nowhere. -/
def holds (t : FileTree) (dir p : Path) : Bool :=
  match t.find dir false with
  | .ok ⟨top, some .directory⟩ => !((t.erase top).canonicalize p).isOk
  | _ => false

/-- Removing a directory leaves a path leading where it led, unless the directory holds it. -/
theorem find_removeTree {dir : Path} (hsep : asksDirectory dir = true)
    (hholds : t.holds dir p = false) (h : t.find p true = .ok ⟨place, some node⟩) :
    (t.removeTree dir).1.find p true = .ok ⟨place, some node⟩ := by
  rw [holds] at hholds
  cases hfind : t.find dir false with
  | error => simpa [removeTree, hfind] using h
  | ok found =>
    obtain ⟨top, node'⟩ := found
    obtain rfl : node' = some .directory := node?_of_asksDirectory hsep hfind
    rw [hfind, Bool.not_eq_false'] at hholds
    obtain ⟨place', node', herased⟩ := find_of_canonicalize hholds
    -- Without the directory the path leads to the same place.
    have hsub : ∀ other node, (t.erase top).node? other = some node →
        t.node? other = some node ∧ (t.removeTree dir).1.node? other = some node := by
      intro other node hnode
      by_cases hroot : other = []
      · rw [hroot] at hnode ⊢
        exact ⟨hnode, hnode⟩
      · rw [node?_erase hroot] at hnode
        split at hnode
        · cases hnode
        · rename_i houtside
          rw [Bool.not_eq_true] at houtside
          exact ⟨hnode, (node?_removeTree_of_outside hfind houtside).trans hnode⟩
    have hbefore := find_mono (fun _ _ hnode => (hsub _ _ hnode).1) rfl herased (by simp)
    have hafter := find_mono (fun _ _ hnode => (hsub _ _ hnode).2) workingDir_removeTree herased
      (by simp)
    rw [h] at hbefore
    rw [hafter, hbefore]

end SoloBuild.FileTree

namespace SoloBuild.SingleFile

open FileTree

variable {t : FileTree} {target : List Char} {projectDir : Path} {s : Settings}

theorem consistent_purge (ht : t.Consistent) : (purge t target projectDir s).1.Consistent := by
  rw [purge_fst]
  split
  · exact ht
  · exact ht.removeTree _

/-- A text that can be read is read after a purge, unless the directory that is purged holds it. -/
theorem readText_purge {p : Path} {text : String} (h : t.readText p = .ok text)
    (hholds : ∀ dir, intermediateDir? target projectDir s = some dir → t.holds dir p = false) :
    (purge t target projectDir s).1.readText p = .ok text := by
  rw [purge_fst]
  split
  · exact h
  · rename_i dir hdir
    obtain ⟨place, node, hfind⟩ := exists_find_of_readText h
    rw [← h]
    exact readText_congr ((find_removeTree (asksDirectory_of_intermediateDir? hdir)
      (hholds dir hdir) hfind).trans hfind.symm)

end SoloBuild.SingleFile
