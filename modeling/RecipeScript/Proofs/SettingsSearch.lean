import RecipeScript.Proofs.SettingsLoading

/-!
# Which settings file is found

The search for settings ends at the first of its paths that leads anywhere, and what is there decides, for good or bad: a
directory, a file that may not be read, one that is no text and a text that holds no settings are faults, and none of them
is passed over for a file further down. A path that leads nowhere is passed over whatever the reason is, also if a directory
along it may not be entered. If the environment names a file, that path is the only one, and it is loaded whether it leads
anywhere or not. So the default is what is left when nothing is named and nothing is found.

What the search comes to depends on no path behind its end (`search_decides`). This is shown by comparing two worlds: they
may differ in all that is behind the end, and still the same path is found and the same is read from it.
-/

namespace RecipeScript

namespace Settings

variable {files files' : Files} {env env' : Environment} {path : String}

theorem searchPaths_of_named (h : env.get? fileVariable = some path) : searchPaths env = [path] := by
  unfold searchPaths
  rw [h]

theorem mem_searchPaths_of_named (h : env.get? fileVariable = some path) : path ∈ searchPaths env := by
  rw [searchPaths_of_named h]
  exact List.mem_cons_self

theorem loadDefault_of_named (h : env.get? fileVariable = some path) : loadDefault files env = load files path := by
  unfold loadDefault
  rw [h]

/-- What is found first is loaded, whether it was searched for or named. -/
theorem loadDefault_of_endsAt {front : List String} (h : files.EndsAt (searchPaths env) front path) :
    loadDefault files env = load files path := by
  cases hnamed : env.get? fileVariable with
  | some named =>
      have hpath : path = named := by
        have hmem := h.mem
        rw [searchPaths_of_named hnamed] at hmem
        exact List.mem_singleton.mp hmem
      rw [loadDefault_of_named hnamed, hpath]
  | none =>
      unfold loadDefault
      rw [hnamed]
      dsimp only
      rw [Files.exists_endsAt_iff.mp ⟨front, h⟩]

theorem loadDefault_of_nothing (hnamed : env.get? fileVariable = none)
    (hnothing : ∀ path ∈ searchPaths env, files.isThere path = false) : loadDefault files env = .ok {} := by
  have hfind : (searchPaths env).find? files.isThere = none := by
    refine List.find?_eq_none.mpr fun path hpath hthere => ?_
    rw [hnothing path hpath] at hthere
    exact Bool.noConfusion hthere
  unfold loadDefault
  rw [hnamed]
  dsimp only
  rw [hfind]

/-- Two worlds in which the same file is named, and in which it is the same, have the same settings. -/
theorem loadDefault_congr_of_named (hnamed : env.get? fileVariable = some path)
    (hnamed' : env'.get? fileVariable = some path) (hread : files'.read path = files.read path) :
    loadDefault files' env' = loadDefault files env := by
  rw [loadDefault_of_named hnamed, loadDefault_of_named hnamed', load_congr hread]

/-- Two worlds in which a search ends at the same path, and in which it is the same, have the same settings. -/
theorem loadDefault_congr_of_endsAt {front : List String} (h : files.EndsAt (searchPaths env) front path)
    (hfront : ∀ earlier ∈ front, files'.isThere earlier = false) (hthere : files'.isThere path = true)
    (hread : files'.read path = files.read path) : loadDefault files' env = loadDefault files env := by
  rw [loadDefault_of_endsAt h, loadDefault_of_endsAt (h.of_there hfront hthere), load_congr hread]

/-- Two worlds in which all paths of the search are the same have the same settings. -/
theorem loadDefault_congr (h : ∀ path ∈ searchPaths env, Files.SameAt files' files path) :
    loadDefault files' env = loadDefault files env := by
  cases hnamed : env.get? fileVariable with
  | some path => exact loadDefault_congr_of_named hnamed hnamed (h path (mem_searchPaths_of_named hnamed)).read
  | none =>
      rcases files.endsAt_or_nothing (searchPaths env) with ⟨front, path, hends⟩ | hnothing
      · have hsame := h path hends.mem
        refine loadDefault_congr_of_endsAt hends (fun earlier hearlier => ?_) (hsame.isThere.trans hends.there) hsame.read
        rw [(h earlier (hends.front_subset hearlier)).isThere]
        exact hends.nothing_before earlier hearlier
      · rw [loadDefault_of_nothing hnamed hnothing, loadDefault_of_nothing hnamed fun path hpath => ?_]
        rw [(h path hpath).isThere]
        exact hnothing path hpath

/--
**The first file that is there decides.** Where the search ends, the settings are loaded from, with whatever fault that
has; and nothing behind the end makes a difference. Where nothing is at any of the paths, everything keeps its default,
unless a file is named: then the fault of reading it is the fault. If a file is named, the rest of the environment and all
other paths make no difference. In a tree, what is there is what its paths lead to, a directory at the end of the search
cannot be loaded, and an empty name leads nowhere.
-/
theorem search_decides (files : Files) (env : Environment) :
    (∀ front path, files.EndsAt (searchPaths env) front path →
        loadDefault files env = load files path
          ∧ (∀ fault, loadDefault files env = .error fault ↔ CannotLoad files path fault)
          ∧ ∀ files' : Files, (∀ earlier ∈ front, files'.isThere earlier = false) → files'.isThere path = true →
              files'.read path = files.read path → loadDefault files' env = loadDefault files env)
      ∧ ((∀ path ∈ searchPaths env, files.isThere path = false) →
          (env.get? fileVariable = none → loadDefault files env = .ok {})
            ∧ ∀ path, env.get? fileVariable = some path →
                ∃ cause, files.read path = .error cause
                  ∧ load files path = .error (.unreadable path cause) ∧ loadDefault files env = load files path)
      ∧ (∀ path, env.get? fileVariable = some path → ∀ (files' : Files) (env' : Environment),
          env'.get? fileVariable = some path → files'.read path = files.read path →
            loadDefault files' env' = loadDefault files env)
      ∧ ∀ tree : FileTree,
          (∀ path, (tree.toFiles.isThere path = true ↔ ∃ node, tree.find path = .ok node)
              ∧ (tree.toFiles.isThere path = false ↔
                ∃ cause ∈ ReadFault.ofNothing, tree.toFiles.read path = .error cause))
            ∧ (∀ front path, tree.toFiles.EndsAt (searchPaths env) front path → tree.find path = .ok .directory →
                loadDefault tree.toFiles env = .error (.unreadable path .isDirectory))
            ∧ (env.get? fileVariable = some "" →
                loadDefault tree.toFiles env = .error (.unreadable "" .notFound)) := by
  refine ⟨fun front path hends => ⟨loadDefault_of_endsAt hends, fun fault => ?_, fun files' hfront hthere hread => ?_⟩,
    fun hnothing => ⟨fun hnamed => loadDefault_of_nothing hnamed hnothing, fun path hnamed => ?_⟩,
    fun path hnamed files' env' hnamed' hread => loadDefault_congr_of_named hnamed hnamed' hread,
    fun tree => ⟨fun path => ⟨FileTree.isThere_toFiles_iff, FileTree.isThere_eq_false_iff⟩,
      fun front path hends hdirectory => ?_, fun hnamed => ?_⟩⟩
  · rw [loadDefault_of_endsAt hends]
    exact load_eq_error_iff
  · exact loadDefault_congr_of_endsAt hends hfront hthere hread
  · obtain ⟨cause, hread⟩ := Files.exists_fault_of_not_there (hnothing path (mem_searchPaths_of_named hnamed))
    exact ⟨cause, hread, load_of_cannotLoad (.unreadable hread), loadDefault_of_named hnamed⟩
  · rw [loadDefault_of_endsAt hends]
    exact load_of_cannotLoad (.unreadable (FileTree.read_of_directory hdirectory))
  · rw [loadDefault_of_named hnamed]
    exact load_of_cannotLoad (.unreadable (FileTree.read_of_error rfl))

/-- A file at home holds no settings. It is found where nothing is in the working directory; a directory there is found
before it, and then it makes no difference; and an empty name is taken instead of it. If the home directory may not be
entered, it is not found, and if only the file may not be read, it is. -/
theorem search_decides_of_file_at_home :
    let home := "home/.recipelang/config.yaml"
    let tree := FileTree.empty.addFile home (Utf8.encode "repl: loud\n")
    let blocked := tree.addDirectory "recipelang.yaml"
    let env : Environment := { bindings := [("HOME", "home")] }
    let named : Environment := { bindings := [("HOME", "home"), (fileVariable, "")] }
    let denied := ReadFault.other "Permission denied (os error 13)"
    let closed (isThere : Bool) : Files := .ofAnswers [(home, isThere, .error denied)]
    (tree.toFiles.EndsAt (searchPaths env) ["recipelang.yaml"] home
        ∧ CannotLoad tree.toFiles home (.malformed home)
        ∧ loadDefault tree.toFiles env = .error (.malformed home))
      ∧ (blocked.toFiles.EndsAt (searchPaths env) [] "recipelang.yaml"
        ∧ blocked.find "recipelang.yaml" = .ok .directory
        ∧ loadDefault blocked.toFiles env = .error (.unreadable "recipelang.yaml" .isDirectory)
        ∧ loadDefault (FileTree.empty.addDirectory "recipelang.yaml").toFiles env = loadDefault blocked.toFiles env)
      ∧ ((∀ path ∈ searchPaths env, FileTree.empty.toFiles.isThere path = false)
        ∧ loadDefault FileTree.empty.toFiles env = .ok {})
      ∧ (named.get? fileVariable = some ""
        ∧ loadDefault tree.toFiles named = .error (.unreadable "" .notFound)
        ∧ loadDefault FileTree.empty.toFiles { bindings := [(fileVariable, "")] } = loadDefault tree.toFiles named)
      ∧ ((∀ path ∈ searchPaths env, (closed false).isThere path = false)
        ∧ loadDefault (closed false) env = .ok {})
      ∧ ((closed true).EndsAt (searchPaths env) ["recipelang.yaml"] home
        ∧ loadDefault (closed true) env = .error (.unreadable home denied)) := by
  intro home tree blocked env named denied closed
  have hhome : tree.toFiles.EndsAt (searchPaths env) ["recipelang.yaml"] home :=
    ⟨by decide +kernel, by decide +kernel, by decide +kernel⟩
  have hmalformed : CannotLoad tree.toFiles home (.malformed home) := by
    have hread : tree.toFiles.read home = .ok (Utf8.encode "repl: loud\n") := by decide +kernel
    exact .malformed hread (by decide +kernel)
  have hblocked : blocked.toFiles.EndsAt (searchPaths env) [] "recipelang.yaml" :=
    ⟨by decide +kernel, by decide +kernel, by decide +kernel⟩
  have hdirectory : blocked.find "recipelang.yaml" = .ok .directory := by decide +kernel
  have hnothing : ∀ path ∈ searchPaths env, FileTree.empty.toFiles.isThere path = false := by decide +kernel
  have hnamed : named.get? fileVariable = some "" := rfl
  have hunentered : ∀ path ∈ searchPaths env, (closed false).isThere path = false := by decide +kernel
  have hunread : (closed true).EndsAt (searchPaths env) ["recipelang.yaml"] home :=
    ⟨by decide +kernel, by decide +kernel, by decide +kernel⟩
  obtain ⟨hfirst, -, -, htree⟩ := search_decides tree.toFiles env
  obtain ⟨hbehind, -, -, -⟩ := search_decides blocked.toFiles env
  obtain ⟨-, hnone, -, -⟩ := search_decides FileTree.empty.toFiles env
  obtain ⟨-, -, hworlds, htrees⟩ := search_decides tree.toFiles named
  exact ⟨⟨hhome, hmalformed, ((hfirst _ _ hhome).2.1 _).mpr hmalformed⟩,
    ⟨hblocked, hdirectory, (htree blocked).2.1 _ _ hblocked hdirectory,
      (hbehind _ _ hblocked).2.2 _ (by decide +kernel) (by decide +kernel) (by decide +kernel)⟩,
    ⟨hnothing, (hnone hnothing).1 rfl⟩,
    ⟨hnamed, (htrees tree).2.2 hnamed, hworlds "" hnamed _ _ rfl rfl⟩,
    ⟨hunentered, ((search_decides (closed false) env).2.1 hunentered).1 rfl⟩,
    ⟨hunread, (((search_decides (closed true) env).1 _ _ hunread).2.1 _).mpr (.unreadable rfl)⟩⟩

end Settings

end RecipeScript
