import RecipeScript.Proofs.JsonReport
import RecipeScript.Proofs.JsonWhole
import RecipeScript.Proofs.Overlay

/-!
# Settings over defaults

What is written for some settings is an object of sections, and each section an object of fields. Both levels
can be edited: sections and fields can be taken out and put into another order, and members of unknown names can
be added (`Settings.IsEdit`). What is read then is `Settings.keep`: the settings as they were where they have
been kept, and the defaults elsewhere.

The sections are read over their own defaults and the settings over theirs. Both are the same, so a section that
was taken out agrees with one all of whose fields were (`Settings.keep_eq_keep_fields`).
-/

namespace RecipeScript

open Json

/-! ## Sections -/

section Sections

variable (keeps : String → Bool)

namespace ReplSettings

/-- The members of the section, as they are written. -/
def members (s : ReplSettings) : List (String × Json) :=
  [("prompt", ofText s.prompt), ("show_banner", .bool s.showBanner), ("handle_ctrl_c", .bool s.handleCtrlC)]

/-- The section with the defaults in all places but some. -/
def keep (s : ReplSettings) : ReplSettings where
  prompt := if keeps "prompt" then s.prompt else ({} : ReplSettings).prompt
  showBanner := if keeps "show_banner" then s.showBanner else ({} : ReplSettings).showBanner
  handleCtrlC := if keeps "handle_ctrl_c" then s.handleCtrlC else ({} : ReplSettings).handleCtrlC

theorem saysFields (s : ReplSettings) : Field.SaysFields fields s.members (fun keeps => s.keep keeps) keeps where
  names := rfl
  nodup := by simp [members]
  read := by
    intro field hfield _ value hvalue others
    simp only [fields, List.mem_cons, List.not_mem_nil, or_false] at hfield
    rcases hfield with rfl | rfl | rfl
    · obtain rfl : value = ofText s.prompt := by simpa [members] using hvalue
      refine (Field.put_of_decode (decodeText_ofText s.prompt) _).trans ?_
      simp [keep]
    · obtain rfl : value = .bool s.showBanner := by simpa [members] using hvalue
      refine (Field.put_of_decode (decodeBool_bool s.showBanner) _).trans ?_
      simp [keep]
    · obtain rfl : value = .bool s.handleCtrlC := by simpa [members] using hvalue
      refine (Field.put_of_decode (decodeBool_bool s.handleCtrlC) _).trans ?_
      simp [keep]
  congr := by
    intro keeps others h
    simp only [members, List.map_cons, List.map_nil, List.forall_mem_cons] at h
    obtain ⟨hprompt, hbanner, hinterrupt, -⟩ := h
    simp only [keep, hprompt, hbanner, hinterrupt]

end ReplSettings

namespace BatchSettings

/-- The members of the section, as they are written. -/
def members (s : BatchSettings) : List (String × Json) :=
  [("stop_on_error", .bool s.stopOnError)]

/-- The section with the defaults in all places but some. -/
def keep (s : BatchSettings) : BatchSettings where
  stopOnError := if keeps "stop_on_error" then s.stopOnError else ({} : BatchSettings).stopOnError

theorem saysFields (s : BatchSettings) : Field.SaysFields fields s.members (fun keeps => s.keep keeps) keeps where
  names := rfl
  nodup := by simp [members]
  read := by
    intro field hfield _ value hvalue others
    obtain rfl := List.mem_singleton.mp hfield
    obtain rfl : value = .bool s.stopOnError := by simpa [members] using hvalue
    refine (Field.put_of_decode (decodeBool_bool s.stopOnError) _).trans ?_
    simp [keep]
  congr := by
    intro keeps others h
    rw [keep, keep, h "stop_on_error" (List.mem_singleton_self _)]

end BatchSettings

namespace OutputSettings

/-- The members of the section, as they are written. -/
def members (s : OutputSettings) : List (String × Json) :=
  [("format", ofText (Vocabulary.name s.format))]

/-- The section with the defaults in all places but some. -/
def keep (s : OutputSettings) : OutputSettings where
  format := if keeps "format" then s.format else ({} : OutputSettings).format

theorem saysFields (s : OutputSettings) : Field.SaysFields fields s.members (fun keeps => s.keep keeps) keeps where
  names := rfl
  nodup := by simp [members]
  read := by
    intro field hfield _ value hvalue others
    obtain rfl := List.mem_singleton.mp hfield
    obtain rfl : value = ofText (Vocabulary.name s.format) := by simpa [members] using hvalue
    refine (Field.put_of_decode (Recipe.decodeWord_wordJson s.format) _).trans ?_
    simp [keep]
  congr := by
    intro keeps others h
    rw [keep, keep, h "format" (List.mem_singleton_self _)]

end OutputSettings

end Sections

namespace Settings

/-! ## All settings -/

section Edits

variable {s : Settings} {keepsSection : String → Bool} {keepsField : String → String → Bool}
  {members : List (List StringPiece × Json)} {text : String}

/-- The settings with the defaults in all places but some: a field is kept if its section is kept and, in this
section, the field is. -/
def keep (s : Settings) (keepsSection : String → Bool) (keepsField : String → String → Bool) : Settings where
  repl := if keepsSection "repl" then s.repl.keep (keepsField "repl") else {}
  batch := if keepsSection "batch" then s.batch.keep (keepsField "batch") else {}
  output := if keepsSection "output" then s.output.keep (keepsField "output") else {}

/-- The members of the settings, for sections that hold the given members. -/
def sections (repl batch output : List (List StringPiece × Json)) : List (String × Json) :=
  [("repl", .object repl true), ("batch", .object batch true), ("output", .object output true)]

/-- What is written for some settings was edited, in the sections and then on the whole. -/
def IsEdit (s : Settings) (keepsSection : String → Bool) (keepsField : String → String → Bool)
    (members : List (List StringPiece × Json)) : Prop :=
  ∃ repl batch output,
    Field.IsEdit s.repl.members (keepsField "repl") repl ∧
    Field.IsEdit s.batch.members (keepsField "batch") batch ∧
    Field.IsEdit s.output.members (keepsField "output") output ∧
    Field.IsEdit (sections repl batch output) keepsSection members

theorem toJson_eq (s : Settings) : s.toJson = .object (writtenMembers (sections (writtenMembers s.repl.members)
    (writtenMembers s.batch.members) (writtenMembers s.output.members))) true :=
  rfl

/-- What is written is one of its own edits. -/
theorem isEdit_self (s : Settings) : s.IsEdit (fun _ => true) (fun _ _ => true)
    (writtenMembers (sections (writtenMembers s.repl.members) (writtenMembers s.batch.members)
      (writtenMembers s.output.members))) :=
  ⟨_, _, _, Field.isEdit_self fun _ _ => rfl, Field.isEdit_self fun _ _ => rfl,
    Field.isEdit_self fun _ _ => rfl, Field.isEdit_self fun _ _ => rfl⟩

theorem keep_all (s : Settings) : s.keep (fun _ => true) (fun _ _ => true) = s :=
  rfl

/-- A section that is taken out is one whose fields are all taken out: the defaults of both levels agree. -/
theorem keep_eq_keep_fields (s : Settings) (keepsSection : String → Bool) (keepsField : String → String → Bool) :
    s.keep keepsSection keepsField =
      s.keep (fun _ => true) fun name field => keepsSection name && keepsField name field := by
  have hrepl : (if keepsSection "repl" then s.repl.keep (keepsField "repl") else {}) =
      s.repl.keep fun field => keepsSection "repl" && keepsField "repl" field := by
    cases keepsSection "repl" <;> rfl
  have hbatch : (if keepsSection "batch" then s.batch.keep (keepsField "batch") else {}) =
      s.batch.keep fun field => keepsSection "batch" && keepsField "batch" field := by
    cases keepsSection "batch" <;> rfl
  have houtput : (if keepsSection "output" then s.output.keep (keepsField "output") else {}) =
      s.output.keep fun field => keepsSection "output" && keepsField "output" field := by
    cases keepsSection "output" <;> rfl
  rw [keep, hrepl, hbatch, houtput]
  rfl

/-- A section that was kept can be looked into, as the whole text can. -/
theorem isBroken_of_mem_section {written : List (String × Json)} {name : String}
    {inner : List (List StringPiece × Json)} (hwhole : (Json.object members true).IsWhole)
    (h : Field.IsEdit written keepsSection members) (hinner : (name, .object inner true) ∈ written)
    (hkept : keepsSection name = true) : ∀ member ∈ inner, member.2.isBroken = false :=
  (hwhole.of_mem _ (h.mem hinner hkept)).isBroken_of_mem

theorem saysFields {repl batch output : List (List StringPiece × Json)}
    (hrepl : keepsSection "repl" = true →
      Field.readRecord ReplSettings.fields {} (.object repl true) = .ok (s.repl.keep (keepsField "repl")))
    (hbatch : keepsSection "batch" = true →
      Field.readRecord BatchSettings.fields {} (.object batch true) = .ok (s.batch.keep (keepsField "batch")))
    (houtput : keepsSection "output" = true →
      Field.readRecord OutputSettings.fields {} (.object output true) = .ok (s.output.keep (keepsField "output"))) :
    Field.SaysFields fields (sections repl batch output) (fun keeps => s.keep keeps keepsField) keepsSection where
  names := rfl
  nodup := by simp [sections]
  read := by
    intro field hfield hkept value hvalue others
    simp only [fields, List.mem_cons, List.not_mem_nil, or_false] at hfield
    rcases hfield with rfl | rfl | rfl
    · obtain rfl : value = .object repl true := by simpa [sections] using hvalue
      refine (Field.put_of_decode (hrepl hkept) _).trans ?_
      simp [keep]
    · obtain rfl : value = .object batch true := by simpa [sections] using hvalue
      refine (Field.put_of_decode (hbatch hkept) _).trans ?_
      simp [keep]
    · obtain rfl : value = .object output true := by simpa [sections] using hvalue
      refine (Field.put_of_decode (houtput hkept) _).trans ?_
      simp [keep]
  congr := by
    intro keeps others h
    simp only [sections, List.map_cons, List.map_nil, List.forall_mem_cons] at h
    obtain ⟨hrepl, hbatch, houtput, -⟩ := h
    simp only [keep, hrepl, hbatch, houtput]

theorem decodeWhole_of_isEdit (h : s.IsEdit keepsSection keepsField members)
    (hread : read text = (.object members true, true)) :
    decodeWhole ofJson text = .ok (s.keep keepsSection keepsField) := by
  rw [decodeWhole_of_read hread]
  have hwhole : (Json.object members true).IsWhole := isWhole_of_read hread rfl
  obtain ⟨repl, batch, output, hrepl, hbatch, houtput, hsections⟩ := h
  have hinside : ∀ {name inner}, (name, Json.object inner true) ∈ sections repl batch output →
      keepsSection name = true → ∀ member ∈ inner, member.2.isBroken = false :=
    fun hinner hkept => isBroken_of_mem_section hwhole hsections hinner hkept
  refine Field.readRecord_of_isEdit (saysFields ?_ ?_ ?_) hsections hwhole.isBroken_of_mem
  · intro hkept
    exact Field.readRecord_of_isEdit (s.repl.saysFields _) hrepl (hinside (by simp [sections]) hkept)
  · intro hkept
    exact Field.readRecord_of_isEdit (s.batch.saysFields _) hbatch (hinside (by simp [sections]) hkept)
  · intro hkept
    exact Field.readRecord_of_isEdit (s.output.saysFields _) houtput (hinside (by simp [sections]) hkept)

theorem isPrintable_toJson (s : Settings) : s.toJson.IsPrintable := by
  refine isPrintable_ofMembers ?_
  simp only [List.forall_mem_cons]
  refine ⟨isPrintable_ofMembers ?_, isPrintable_ofMembers ?_, isPrintable_ofMembers ?_, List.forall_mem_nil _⟩
  · simp only [List.forall_mem_cons]
    exact ⟨isPrintable_ofText _, .bool _, .bool _, List.forall_mem_nil _⟩
  · exact List.forall_mem_singleton.mpr (.bool _)
  · exact List.forall_mem_singleton.mpr (isPrintable_ofText _)

theorem decodeWhole_of_read_toJson (hread : read text = (s.toJson, true)) : decodeWhole ofJson text = .ok s := by
  rw [toJson_eq] at hread
  exact decodeWhole_of_isEdit s.isEdit_self hread

end Edits

/-! ## Repeated sections and fields -/

/-- The sections, each with the names of its fields. -/
def fieldNames : List (String × List String) :=
  [("repl", ReplSettings.fields.map (·.name)), ("batch", BatchSettings.fields.map (·.name)),
    ("output", OutputSettings.fields.map (·.name))]

/-- Some section stands there more than once, or some field of a section inside one. -/
def Repeats (members : List (List StringPiece × Json)) : Prop :=
  Field.Repeats (fieldNames.map Prod.fst) members ∨
    ∃ name names inner closed, (name, names) ∈ fieldNames ∧ .object inner closed ∈ valuesOf name members ∧
      Field.Repeats names inner

theorem not_repeats_of_ofJson_ok {s : Settings} {members : List (List StringPiece × Json)} {closed : Bool}
    (h : ofJson (.object members closed) = .ok s) : ¬ Repeats members := by
  intro hrepeats
  rcases hrepeats with hsections | ⟨name, names, inner, innerClosed, hname, hvalue, hinner⟩
  · exact Field.not_repeats_of_readRecord_ok h hsections
  · simp only [fieldNames, List.mem_cons, Prod.mk.injEq, List.not_mem_nil, or_false] at hname
    rcases hname with ⟨rfl, rfl⟩ | ⟨rfl, rfl⟩ | ⟨rfl, rfl⟩
    · exact Field.not_repeats_of_field h rfl hvalue hinner
    · exact Field.not_repeats_of_field h rfl hvalue hinner
    · exact Field.not_repeats_of_field h rfl hvalue hinner

theorem error_of_repeats {text : String} {members : List (List StringPiece × Json)} {closed : Bool}
    (hread : (read text).1 = .object members closed) (hrepeats : Repeats members) :
    ∃ fault, decodeWhole ofJson text = .error fault := by
  cases hdecoded : decodeWhole ofJson text with
  | error fault => exact ⟨fault, rfl⟩
  | ok s =>
      have hobject := decode_of_decodeWhole hdecoded
      rw [hread] at hobject
      exact absurd hrepeats (not_repeats_of_ofJson_ok hobject)

/--
**Settings are read over their defaults.** Every text that is read as an object that was written for some
settings, and then had sections and fields taken out or put into another order and members of unknown names
added, is decoded as the settings with the defaults in place of what was taken out. If nothing was taken out
these are the same settings, and so they are for what is written on one line or over lines. A text in which a
section is repeated, or a field inside a section, is refused.
-/
theorem decoded_over_defaults (s : Settings) :
    (∀ keepsSection keepsField members text, s.IsEdit keepsSection keepsField members →
      read text = (.object members true, true) →
      decodeWhole ofJson text = .ok (s.keep keepsSection keepsField))
      ∧ (∀ members text, s.IsEdit (fun _ => true) (fun _ _ => true) members →
        read text = (.object members true, true) → decodeWhole ofJson text = .ok s)
      ∧ (decodeWhole ofJson s.toJson.toCompactText = .ok s ∧ decodeWhole ofJson s.toJson.toPrettyText = .ok s)
      ∧ ∀ text members closed, (read text).1 = .object members closed → Repeats members →
        ∃ fault, decodeWhole ofJson text = .error fault := by
  refine ⟨fun _ _ _ _ => decodeWhole_of_isEdit, fun members text hedit hread => ?_, ⟨?_, ?_⟩,
    fun _ _ _ => error_of_repeats⟩
  · have hdecoded := decodeWhole_of_isEdit hedit hread
    rwa [keep_all] at hdecoded
  · exact decodeWhole_of_read_toJson s.isPrintable_toJson.read_toCompactText
  · exact decodeWhole_of_read_toJson s.isPrintable_toJson.read_toPrettyText

/-- A prompt that has to be escaped is kept, while a field and a section go back to their defaults. -/
theorem decoded_over_defaults_of_reversed :
    let prompt := "\"\\\u0001\n> "
    let s : Settings := ⟨⟨prompt, false, false⟩, ⟨false⟩, ⟨.json⟩⟩
    let repl := [("theme", .null), ("handle_ctrl_c", .bool false), ("prompt", ofText prompt)]
    let edited := ofMembers
      [("editor", .null), ("output", ofMembers [("format", ofText "json")]), ("repl", ofMembers repl)]
    let repeated := ofMembers [("output", .null), ("repl", ofMembers repl), ("output", .null)]
    (∃ members, edited = .object members true ∧
        s.IsEdit (fun name => name != "batch") (fun _ name => name != "show_banner") members)
      ∧ read edited.toCompactText = (edited, true)
      ∧ decodeWhole ofJson edited.toCompactText = .ok ⟨⟨prompt, true, false⟩, {}, ⟨.json⟩⟩
      ∧ (∃ members, repeated = .object members true ∧ Repeats members)
      ∧ ∃ fault, decodeWhole ofJson repeated.toCompactText = .error fault := by
  intro prompt s repl edited repeated
  have hrepl : (ofMembers repl).IsPrintable := by
    refine isPrintable_ofMembers ?_
    simp only [repl, List.forall_mem_cons]
    exact ⟨.null, .bool false, isPrintable_ofText prompt, List.forall_mem_nil _⟩
  have hedited : edited.IsPrintable := by
    refine isPrintable_ofMembers ?_
    simp only [List.forall_mem_cons]
    refine ⟨.null, isPrintable_ofMembers ?_, hrepl, List.forall_mem_nil _⟩
    exact List.forall_mem_singleton.mpr (isPrintable_ofText "json")
  have hrepeated : repeated.IsPrintable := by
    refine isPrintable_ofMembers ?_
    simp only [List.forall_mem_cons]
    exact ⟨.null, hrepl, .null, List.forall_mem_nil _⟩
  have hedit : s.IsEdit (fun name => name != "batch") (fun _ name => name != "show_banner")
      (writtenMembers
        [("editor", .null), ("output", ofMembers [("format", ofText "json")]), ("repl", ofMembers repl)]) := by
    refine ⟨writtenMembers repl, writtenMembers s.batch.members, writtenMembers s.output.members, ?_, ?_, ?_, ?_⟩
    -- what was kept and what was added stand there in reverse order
    · refine Field.isEdit_of_perm [("theme", .null)] (by simp [ReplSettings.members]) ?_
      have hkept : s.repl.members.filter (fun member => member.1 != "show_banner")
          = [("prompt", ofText prompt), ("handle_ctrl_c", .bool false)] := by
        simp [ReplSettings.members, s]
      rw [hkept]
      exact List.reverse_perm [("prompt", ofText prompt), ("handle_ctrl_c", .bool false), ("theme", .null)]
    · exact Field.isEdit_self (by simp [BatchSettings.members])
    · exact Field.isEdit_self (by simp [OutputSettings.members])
    · refine Field.isEdit_of_perm [("editor", .null)] (by simp [sections]) ?_
      simp only [sections]
      exact List.reverse_perm
        [("repl", ofMembers repl), ("output", ofMembers [("format", ofText "json")]), ("editor", .null)]
  have hread := hedited.read_toCompactText
  obtain ⟨hdecoded, -, -, hrefused⟩ := decoded_over_defaults s
  have hrepeats : Repeats (writtenMembers [("output", .null), ("repl", ofMembers repl), ("output", .null)]) :=
    Or.inl ⟨"output", by simp [fieldNames], by simp [valuesOf_writtenMembers]⟩
  refine ⟨⟨_, rfl, hedit⟩, hread, ?_, ⟨_, rfl, hrepeats⟩, ?_⟩
  · rw [hdecoded _ _ _ _ hedit hread]
    simp [keep, ReplSettings.keep, OutputSettings.keep, s]
  · exact hrefused _ _ true (by rw [hrepeated.read_toCompactText]; rfl) hrepeats

end Settings

end RecipeScript
