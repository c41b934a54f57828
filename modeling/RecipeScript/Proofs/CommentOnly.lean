import RecipeScript.Proofs.PhysicalLines
import RecipeScript.Proofs.SettingsLoading
import RecipeScript.Proofs.YamlDocument

/-!
# Files of comments

A settings file in which every line is blank or a comment is not read as YAML: everything keeps its default. This is
right as long as the lines are those of YAML. YAML then sees no settings either, though it may see something, as it
does not know all white space as such: what it sees is a text, which is refused, or members whose names begin with a
foreign blank, which are skipped.

The lines are cut at line feeds only, though. A carriage return, a next-line character and the separators of lines and
paragraphs end a comment for YAML, and what follows one of them in the same line is not looked at. Where there are none
of these, apart from carriage returns right before line feeds, the lines are the same (`hasQuietLines_of_breaksAtFeeds`),
and no settings are lost (`load_of_breaksAtFeeds`).
-/

namespace RecipeScript

open Yaml

namespace Settings

section Foreign

variable {ρ : Type} {document : Node} {fields : List (YamlField ρ)} {record : ρ}

/-- No field has a name that begins with a foreign blank. -/
def AreKnown (fields : List (YamlField ρ)) : Prop :=
  ∀ name ∈ fields.map YamlField.name, name.toList.head?.any isForeign = false

theorem find?_foreign {c : Char} (text : List Char) (hfields : AreKnown fields) (hc : isForeign c = true) :
    fields.find? (·.name = String.ofList (c :: text)) = none := by
  rw [List.find?_eq_none]
  intro field hfield hname
  have hchars : field.name.toList = c :: text := by
    rw [of_decide_eq_true hname, String.toList_ofList]
  have hknown := hfields field.name (List.mem_map_of_mem hfield)
  rw [hchars] at hknown
  exact absurd (hc.symm.trans hknown) (by decide)

/-- Members whose names begin with a foreign blank are skipped. -/
theorem readMembers?_foreign {met : List String} {members : List (Node × Node)} (hfields : AreKnown fields)
    (hmembers : ∀ member ∈ members, member.1.IsForeign) :
    YamlField.readMembers? document fields met record members = some record := by
  induction members with
  | nil => rfl
  | cons member members ih =>
      obtain ⟨name, value⟩ := member
      have hname : name.IsForeign := hmembers (name, value) List.mem_cons_self
      obtain ⟨c, text, rfl, hc⟩ := hname.exists_text
      have hfind := find?_foreign text hfields hc
      have hmore := ih fun member hmember => hmembers member (List.mem_cons_of_mem _ hmember)
      unfold YamlField.readMembers?
      simp only [Node.target?, yamlText?, Option.bind_eq_bind, Option.bind_some, hfind]
      exact hmore

theorem readRecord?_foreign {settings : ρ} (hfields : AreKnown fields) {node : Node} (hnode : node.IsForeignDocument)
    (h : YamlField.readRecord? document fields record node = some settings) : settings = record := by
  unfold YamlField.readRecord? at h
  split at h
  case h_1 anchor tag members =>
    rw [readMembers?_foreign hfields hnode] at h
    exact (Option.some.inj h).symm
  case h_2 =>
    exact (Option.some.inj h).symm
  case h_3 => exact absurd h (by simp)

end Foreign

theorem areKnown_yamlFields (document : Node) : AreKnown (yamlFields document) := by
  show ∀ name ∈ ["repl", "batch", "output"], name.toList.head?.any isForeign = false
  decide

/-- **YAML sees no settings in a quiet text.** -/
theorem eq_defaults_of_quietLines {text : String} {settings : Settings} (h : HasQuietLines text.toList)
    (hyaml : ofYaml? text = some settings) : settings = {} := by
  unfold ofYaml? at hyaml
  simp only [Option.bind_eq_bind, Option.bind_eq_some_iff] at hyaml
  obtain ⟨document, hdocument, hyaml⟩ := hyaml
  split at hyaml
  case h_1 => exact (Option.some.inj hyaml).symm
  case h_2 node =>
    have hforeign := Node.isForeignDocument_of_ofText? h hdocument
    unfold ofYamlDocument? at hyaml
    simp only [Option.bind_eq_bind, Option.bind_eq_some_iff] at hyaml
    obtain ⟨target, htarget, hyaml⟩ := hyaml
    obtain rfl : target = node := by
      cases node with
      | scalar => exact (Option.some.inj htarget).symm
      | sequence => exact (Option.some.inj htarget).symm
      | mapping => exact (Option.some.inj htarget).symm
      | «alias» => exact absurd hforeign id
    exact readRecord?_foreign (areKnown_yamlFields target) hforeign hyaml

/-! ## Lines of YAML and lines of a file -/

/-- The only line breaks are line feeds, with or without a carriage return in front. -/
def BreaksAtFeeds (cs : List Char) : Prop :=
  ∀ (b : Char) (rest : List Char), b :: rest <:+ cs → isBreak b = true → b = '\n' ∨ b = '\r' ∧ rest.head? = some '\n'

section Feeds

variable {piece cs : List Char}

/-- Without a line feed there is no line break at all. -/
theorem BreaksAtFeeds.isBreak_eq_false (h : BreaksAtFeeds cs) (hfeed : '\n' ∉ cs) : ∀ b ∈ cs, isBreak b = false := by
  intro b hb
  obtain ⟨front, back, rfl⟩ := List.append_of_mem hb
  cases hbreak : isBreak b with
  | false => rfl
  | true =>
      refine absurd ?_ hfeed
      rcases h b back ⟨front, rfl⟩ hbreak with rfl | ⟨-, hnext⟩
      · exact hb
      · exact List.mem_append_right front (List.mem_cons_of_mem b (List.mem_of_head? hnext))

/-- In front of a line feed, only a carriage return right before it is a line break. -/
theorem BreaksAtFeeds.eq_return {front back : List Char} {b : Char} (h : BreaksAtFeeds (piece ++ '\n' :: cs))
    (hfeed : '\n' ∉ piece) (hpiece : piece = front ++ b :: back) (hb : isBreak b = true) : b = '\r' ∧ back = [] := by
  subst hpiece
  rcases h b (back ++ '\n' :: cs) ⟨front, by simp⟩ hb with rfl | ⟨hreturn, hnext⟩
  · exact absurd (by simp) hfeed
  · cases back with
    | nil => exact ⟨hreturn, rfl⟩
    | cons d back =>
        obtain rfl : d = '\n' := Option.some.inj hnext
        exact absurd (by simp) hfeed

/-- In front of a line feed there is one line of YAML, or one and an empty one. -/
theorem splitOn_isBreak_piece (h : BreaksAtFeeds (piece ++ '\n' :: cs)) (hfeed : '\n' ∉ piece) :
    ∀ line ∈ splitOn isBreak piece, line = Lines.dropReturn '\r' piece ∨ line = [] := by
  unfold Lines.dropReturn
  split
  case isTrue hreturn =>
    obtain ⟨front, rfl⟩ := List.getLast?_eq_some_iff.mp hreturn
    have hfront : ∀ b ∈ front, isBreak b = false := by
      intro b hmem
      obtain ⟨left, right, rfl⟩ := List.append_of_mem hmem
      cases hb : isBreak b with
      | false => rfl
      | true =>
          have hnil := (h.eq_return hfeed (List.append_assoc left (b :: right) ['\r']) hb).2
          exact absurd hnil (by simp)
    rw [splitOn_append_sep front [] (by decide), splitOn_eq_singleton hfront, List.dropLast_concat]
    intro line hline
    simpa [splitOn] using hline
  case isFalse hreturn =>
    have hpiece : ∀ b ∈ piece, isBreak b = false := by
      intro b hmem
      obtain ⟨left, right, rfl⟩ := List.append_of_mem hmem
      cases hb : isBreak b with
      | false => rfl
      | true =>
          obtain ⟨rfl, rfl⟩ := h.eq_return hfeed rfl hb
          exact absurd (by simp) hreturn
    rw [splitOn_eq_singleton hpiece]
    intro line hline
    exact .inl (List.mem_singleton.mp hline)

theorem isBlankOrComment_nil : isBlankOrComment (String.ofList []) = true := by
  rw [isBlankOrComment_ofList]
  rfl

/-- **Where lines end at line feeds, they are lines of YAML.** -/
theorem hasQuietLines_of_breaksAtFeeds (h : BreaksAtFeeds cs)
    (hlines : ∀ line ∈ (Lines.cut '\n' '\r' cs).all, isBlankOrComment (String.ofList line) = true) :
    HasQuietLines cs := by
  induction cs using Lines.feedInduction '\n' with
  | last cs hfeed =>
      intro line hline
      rw [splitOn_eq_singleton (h.isBreak_eq_false hfeed), List.mem_singleton] at hline
      subst hline
      by_cases hempty : line = []
      · subst hempty
        exact isBlankOrComment_nil
      · refine hlines line ?_
        rw [Lines.all_cut_of_not_mem hfeed, if_neg hempty]
        exact List.mem_singleton_self line
  | more piece cs hfeed ih =>
      rw [Lines.all_cut_append_feed cs hfeed] at hlines
      have hrest : HasQuietLines cs := by
        refine ih (fun b rest hrest => h b rest ?_) fun line hline => hlines line (List.mem_cons_of_mem _ hline)
        exact hrest.trans (List.suffix_append_of_suffix (List.suffix_cons '\n' cs))
      intro line hline
      rw [splitOn_append_sep piece cs (by decide)] at hline
      rcases List.mem_append.mp hline with hfirst | hlater
      · rcases splitOn_isBreak_piece h hfeed line hfirst with rfl | rfl
        · exact hlines _ List.mem_cons_self
        · exact isBlankOrComment_nil
      · exact hrest line hlater

end Feeds

/-! ## Loading -/

theorem ofText?_of_ofYaml? {text : String} {settings : Settings}
    (hlines : (linesOf text).all isBlankOrComment = true → HasQuietLines text.toList)
    (hyaml : ofYaml? text = some settings) : ofText? text = some settings := by
  unfold ofText?
  split
  case isTrue hcomments =>
    rw [eq_defaults_of_quietLines (hlines hcomments) hyaml]
  case isFalse => exact hyaml

/--
**A file of comments hides no settings, if its comments end where YAML says they do.** Whatever settings YAML sees in a
file are loaded from it, if a file that is taken for one of comments only has quiet lines, those of YAML.
-/
theorem load_of_ofYaml? {files : Files} {path text : String} {settings : Settings}
    (hread : files.readText path = .ok text)
    (hlines : (linesOf text).all isBlankOrComment = true → HasQuietLines text.toList)
    (hyaml : ofYaml? text = some settings) : load files path = .ok settings :=
  load_of_ofText? hread (ofText?_of_ofYaml? hlines hyaml)

/-- A comment, and what YAML takes for a member, as its name begins with a no-break space. -/
theorem load_of_foreign_member :
    let text := "# nothing is set\r\n\u00A0#: true\n"
    let files : Files := .ofTexts [("c.yaml", text)]
    (linesOf text).all isBlankOrComment = true ∧ HasQuietLines text.toList ∧ ofYaml? text = some {}
      ∧ load files "c.yaml" = .ok {} := by
  intro text files
  have hlines : HasQuietLines text.toList := by
    unfold HasQuietLines
    decide +kernel
  have hyaml : ofYaml? text = some {} := by decide +kernel
  have hread : files.readText "c.yaml" = .ok text := readText_of_read rfl
  exact ⟨by decide +kernel, hlines, hyaml, load_of_ofYaml? hread (fun _ => hlines) hyaml⟩

/-- A carriage return ends a comment for YAML, but not a line for the search for comments: what is set behind it is
not found. -/
theorem load_of_comment_ended_by_return :
    let text := "#\rbatch:\r  stop_on_error: false\r"
    let files : Files := .ofTexts [("c.yaml", text)]
    ofYaml? text = some { batch := { stopOnError := false } } ∧ load files "c.yaml" = .ok {} := by
  intro text files
  have hyaml : ofYaml? text = some { batch := { stopOnError := false } } := by decide +kernel
  have htext : ofText? text = some {} := by decide +kernel
  have hread : files.readText "c.yaml" = .ok text := readText_of_read rfl
  exact ⟨hyaml, load_of_ofText? hread htext⟩

/-- The settings YAML sees in a file whose lines end at line feeds are loaded from it. -/
theorem load_of_breaksAtFeeds {files : Files} {path text : String} {settings : Settings}
    (hread : files.readText path = .ok text) (hbreaks : BreaksAtFeeds text.toList)
    (hyaml : ofYaml? text = some settings) : load files path = .ok settings := by
  refine load_of_ofText? hread (ofText?_of_ofYaml? (fun hlines => ?_) hyaml)
  exact hasQuietLines_of_breaksAtFeeds hbreaks fun line hline =>
    List.all_eq_true.mp hlines _ (List.mem_map_of_mem hline)

end Settings

end RecipeScript
