import Mathlib.Data.List.Infix
import RecipeScript.Files

/-!
# What is at a path

What is at a path is what it answers to two questions: whether it leads anywhere, and what can be read from it. If it leads
nowhere, then nothing can be read from it, but the fault of reading does not tell: a file that may not be read and a file
behind a directory that may not be entered have the same fault, and only the first is there. A file tree permits everything,
so there the fault does tell (`isThere_eq_false_iff`): whatever stops the walk along a path is one of four faults, and what
is wrong with a directory at its end is another one.

A search goes through paths in order and ends at the first that leads anywhere (`EndsAt`). What it finds depends on nothing
behind the end, and in front of it only on there being nothing.
-/

namespace RecipeScript

/-- The faults that a path in a file tree has when it leads nowhere. -/
def ReadFault.ofNothing : List ReadFault :=
  [.notFound, .notDirectory, .nameTooLong, .nulInPath]

namespace Files

variable {files files' : Files} {path : String}

/-- What is not there cannot be read. -/
theorem exists_fault_of_not_there (h : files.isThere path = false) : ∃ cause, files.read path = .error cause := by
  cases hread : files.read path with
  | error cause => exact ⟨cause, rfl⟩
  | ok bytes =>
      rw [files.isThere_of_read hread] at h
      cases h

theorem readText_congr (h : files'.read path = files.read path) : files'.readText path = files.readText path := by
  unfold readText
  rw [h]

/-- A path answers both questions alike in two file systems. -/
structure SameAt (files' files : Files) (path : String) : Prop where
  read : files'.read path = files.read path
  isThere : files'.isThere path = files.isThere path

/-- Answers that were noted down are given again. -/
theorem sameAt_ofAnswers {paths : List String} (h : path ∈ paths) :
    SameAt (ofAnswers (paths.map fun path => (path, files.isThere path, files.read path))) files path := by
  have hlookup : (paths.map fun path => (path, files.isThere path, files.read path)).lookup path =
      some (files.isThere path, files.read path) :=
    List.lookup_graph (fun path => (files.isThere path, files.read path)) h
  constructor
  · unfold ofAnswers
    dsimp only
    rw [hlookup]
  · unfold ofAnswers
    dsimp only
    rw [hlookup]
    cases hread : files.read path with
    | ok bytes => exact (files.isThere_of_read hread).symm
    | error cause => rfl

/-! ## Searching -/

/-- A search through paths ends at `path`: something is there, and nothing is at those in `front` of it. -/
structure EndsAt (files : Files) (paths front : List String) (path : String) : Prop where
  divides : front ++ [path] <+: paths
  nothing_before : ∀ earlier ∈ front, files.isThere earlier = false
  there : files.isThere path = true

section EndsAt

variable {paths front : List String}

theorem EndsAt.mem (h : files.EndsAt paths front path) : path ∈ paths :=
  h.divides.subset (List.mem_append_right front List.mem_cons_self)

theorem EndsAt.front_subset (h : files.EndsAt paths front path) : front ⊆ paths :=
  fun _ hearlier => h.divides.subset (List.mem_append_left [path] hearlier)

/-- A search finds the path at which it ends. -/
theorem exists_endsAt_iff : (∃ front, files.EndsAt paths front path) ↔ paths.find? files.isThere = some path := by
  rw [List.find?_eq_some_iff_append]
  constructor
  · intro h
    obtain ⟨front, ⟨rest, hpaths⟩, hbefore, hthere⟩ := h
    rw [List.append_assoc] at hpaths
    refine ⟨hthere, front, rest, hpaths.symm, fun earlier hearlier => ?_⟩
    rw [hbefore earlier hearlier]
    rfl
  · intro h
    obtain ⟨hthere, front, rest, hpaths, hbefore⟩ := h
    have hdivides : front ++ [path] <+: paths := by
      refine ⟨rest, ?_⟩
      rw [hpaths, List.append_assoc]
      rfl
    exact ⟨front, hdivides, fun earlier hearlier => by simpa using hbefore earlier hearlier, hthere⟩

/-- A search ends somewhere, or nothing is at any of its paths. -/
theorem endsAt_or_nothing (files : Files) (paths : List String) :
    (∃ front path, files.EndsAt paths front path) ∨ ∀ path ∈ paths, files.isThere path = false := by
  cases hfind : paths.find? files.isThere with
  | some path =>
      obtain ⟨front, hends⟩ := exists_endsAt_iff.mpr hfind
      exact .inl ⟨front, path, hends⟩
  | none =>
      refine .inr fun path hpath => ?_
      exact Bool.eq_false_iff.mpr (List.find?_eq_none.mp hfind path hpath)

/-- A search ends at the same path in all files that have nothing in front of it and something at it. -/
theorem EndsAt.of_there (h : files.EndsAt paths front path)
    (hfront : ∀ earlier ∈ front, files'.isThere earlier = false) (hthere : files'.isThere path = true) :
    files'.EndsAt paths front path :=
  ⟨h.divides, hfront, hthere⟩

end EndsAt

end Files

/-! ## File trees -/

namespace FileTree

variable {tree : FileTree}

/-- Whatever stops a walk through a tree, there is nothing where it was to lead. -/
theorem mem_ofNothing_of_follow {cause : ReadFault} {here parts : List String}
    (h : tree.follow here parts = .error cause) : cause ∈ ReadFault.ofNothing := by
  fun_induction follow tree here parts with
  -- the walk has come to something
  | case1 | case5 | case9 => cases h
  -- it goes on where it is, one up and one down
  | case2 here part parts hstays ih => exact ih h
  | case4 here parts hstays hlong hbelow ih => exact ih h
  | case8 here part parts hstays hlong hup names hnode ih => exact ih h
  -- it is stopped by a long name, above the top, by a missing name and by a file
  | case3 | case6 | case7 | case10 =>
      cases h
      decide

theorem mem_ofNothing_of_find {cause : ReadFault} {path : String} (h : tree.find path = .error cause) :
    cause ∈ ReadFault.ofNothing := by
  unfold find at h
  split at h
  case h_1 =>
    cases h
    decide
  case h_2 =>
    split_ifs at h
    · cases h
      decide
    · cases h
      decide
    · cases h
      decide
    · exact mem_ofNothing_of_follow h

theorem read_of_error {cause : ReadFault} {path : String} (h : tree.find path = .error cause) :
    tree.toFiles.read path = .error cause := by
  unfold toFiles
  dsimp only
  rw [h]
  rfl

theorem read_of_file {bytes : List UInt8} {path : String} (h : tree.find path = .ok (.file bytes)) :
    tree.toFiles.read path = .ok bytes := by
  unfold toFiles
  dsimp only
  rw [h]
  rfl

theorem read_of_directory {path : String} (h : tree.find path = .ok .directory) :
    tree.toFiles.read path = .error .isDirectory := by
  unfold toFiles
  dsimp only
  rw [h]
  rfl

/-- What is there in a tree is what its paths lead to, files and directories. -/
theorem isThere_toFiles_iff {path : String} : tree.toFiles.isThere path = true ↔ ∃ node, tree.find path = .ok node := by
  unfold toFiles
  dsimp only
  cases hfind : tree.find path with
  | ok node => exact ⟨fun _ => ⟨node, rfl⟩, fun _ => rfl⟩
  | error cause => exact ⟨fun h => (by cases h), fun h => (by obtain ⟨node, h⟩ := h; cases h)⟩

/-- **In a tree, what is not there is told by four faults.** -/
theorem isThere_eq_false_iff {path : String} :
    tree.toFiles.isThere path = false ↔ ∃ cause ∈ ReadFault.ofNothing, tree.toFiles.read path = .error cause := by
  cases hfind : tree.find path with
  | error cause =>
      have hnothing : tree.toFiles.isThere path = false := by
        rw [← Bool.not_eq_true, isThere_toFiles_iff, hfind]
        exact fun h => (by obtain ⟨node, h⟩ := h; cases h)
      exact iff_of_true hnothing ⟨cause, mem_ofNothing_of_find hfind, read_of_error hfind⟩
  | ok node =>
      have hthere : tree.toFiles.isThere path = true := isThere_toFiles_iff.mpr ⟨node, hfind⟩
      refine iff_of_false (by rw [hthere]; exact Bool.noConfusion) fun h => ?_
      obtain ⟨cause, hcause, hread⟩ := h
      cases node with
      | file bytes =>
          rw [read_of_file hfind] at hread
          cases hread
      | directory =>
          rw [read_of_directory hfind] at hread
          cases hread
          exact absurd hcause (by decide)

end FileTree

end RecipeScript
