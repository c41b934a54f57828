import RecipeScript.Json.Printer
import RecipeScript.Json.Reader
import RecipeScript.Proofs.JsonTokens

/-!
# JSON texts are read as what they say

`Lays text value` says that a text is a way to lay out a value: tokens in their order, any blanks between
them. The reader finds the value of every such text (`Lays.readValue`), so laying values out in two ways
never gives the reader two values. The compact layout is one of those ways, and a value that is written
compactly is read back (`IsPrintable.read_toCompactText`).
-/

namespace RecipeScript.Json

/-- Any number of blanks. -/
def Gap (cs : List Char) : Prop :=
  ∀ c ∈ cs, isSpace c = true

mutual

/-- A text lays a value out, from its first token to its last. -/
inductive Lays : List Char → Json → Prop
  | null : Lays ['n', 'u', 'l', 'l'] null
  | boolTrue : Lays ['t', 'r', 'u', 'e'] (bool true)
  | boolFalse : Lays ['f', 'a', 'l', 's', 'e'] (bool false)
  | number {n : Numeral} : n.IsProper → Lays n.text (number n)
  | string {pieces : List StringPiece} : (∀ piece ∈ pieces, piece.IsProper) →
      Lays ('"' :: (writtenPieces pieces ++ ['"'])) (string pieces)
  | emptyArray {a : List Char} : Gap a → Lays ('[' :: (a ++ [']'])) (array [] true)
  | array {a text : List Char} {items : List Json} : Gap a → LaysItems text items →
      Lays ('[' :: (a ++ text)) (array items true)
  | emptyObject {a : List Char} : Gap a → Lays ('{' :: (a ++ ['}'])) (object [] true)
  | object {a text : List Char} {members : List (List StringPiece × Json)} : Gap a →
      LaysMembers text members → Lays ('{' :: (a ++ text)) (object members true)

/-- A text lays out the items of a list, from the first item to the closing bracket. -/
inductive LaysItems : List Char → List Json → Prop
  | last {a text : List Char} {value : Json} : Lays text value → Gap a →
      LaysItems (text ++ (a ++ [']'])) [value]
  | cons {a b text rest : List Char} {value : Json} {items : List Json} : Lays text value → Gap a → Gap b →
      LaysItems rest items → LaysItems (text ++ (a ++ ',' :: (b ++ rest))) (value :: items)

/-- A text lays out the members of an object, from the first name to the closing brace. -/
inductive LaysMembers : List Char → List (List StringPiece × Json) → Prop
  | last {a b c text : List Char} {name : List StringPiece} {value : Json} :
      (∀ piece ∈ name, piece.IsProper) → Gap a → Gap b → Lays text value → Gap c →
      LaysMembers ('"' :: (writtenPieces name ++ '"' :: (a ++ ':' :: (b ++ (text ++ (c ++ ['}']))))))
        [(name, value)]
  | cons {a b c d text rest : List Char} {name : List StringPiece} {value : Json}
      {members : List (List StringPiece × Json)} :
      (∀ piece ∈ name, piece.IsProper) → Gap a → Gap b → Lays text value → Gap c → Gap d →
      LaysMembers rest members →
      LaysMembers ('"' :: (writtenPieces name ++ '"' :: (a ++ ':' :: (b ++ (text ++ (c ++ ',' :: (d ++ rest)))))))
        ((name, value) :: members)

end

/-! ## Tokens -/

theorem gap_nil : Gap [] :=
  fun _ hc => absurd hc List.not_mem_nil

theorem skipSpace_gap {gap : List Char} (h : Gap gap) (cs : List Char) :
    skipSpace (gap ++ cs) = skipSpace cs :=
  List.dropWhile_append_of_pos h

theorem skipSpace_cons {c : Char} (h : isSpace c = false) (cs : List Char) : skipSpace (c :: cs) = c :: cs :=
  List.dropWhile_cons_of_neg (by rw [h]; exact Bool.false_ne_true)

/-! ## What a value begins with -/

/-- What a value may begin with: a mark or a letter, or what a numeral begins with. -/
def Opens (c : Char) : Prop :=
  c ∈ ['"', '[', '{', 'n', 't', 'f'] ∨ Numeral.Begins c

theorem isSpace_of_begins {c : Char} (h : Numeral.Begins c) : isSpace c = false := by
  simp only [isSpace, Bool.or_eq_false_iff, beq_eq_false_iff_ne]
  exact ⟨⟨⟨h.ne (by decide) (by decide), h.ne (by decide) (by decide)⟩, h.ne (by decide) (by decide)⟩,
    h.ne (by decide) (by decide)⟩

theorem Opens.isSpace_eq_false {c : Char} (h : Opens c) : isSpace c = false := by
  rcases h with h | h
  · have hall : ∀ c ∈ ['"', '[', '{', 'n', 't', 'f'], isSpace c = false := by simp [isSpace]
    exact hall c h
  · exact isSpace_of_begins h

theorem Opens.ne_closing {c : Char} (h : Opens c) : c ≠ ']' := by
  rcases h with h | h
  · have hall : ∀ c ∈ ['"', '[', '{', 'n', 't', 'f'], c ≠ ']' := by simp
    exact hall c h
  · exact h.ne (by decide) (by decide)

theorem Lays.exists_opens {text : List Char} {value : Json} (h : Lays text value) :
    ∃ c cs, text = c :: cs ∧ Opens c := by
  cases h with
  | null => exact ⟨_, _, rfl, Or.inl (by decide)⟩
  | boolTrue => exact ⟨_, _, rfl, Or.inl (by decide)⟩
  | boolFalse => exact ⟨_, _, rfl, Or.inl (by decide)⟩
  | number hn =>
      obtain ⟨c, cs, htext, hc⟩ := hn.exists_begins
      exact ⟨c, cs, htext, Or.inr hc⟩
  | string _ => exact ⟨_, _, rfl, Or.inl (by decide)⟩
  | emptyArray _ => exact ⟨_, _, rfl, Or.inl (by decide)⟩
  | array _ _ => exact ⟨_, _, rfl, Or.inl (by decide)⟩
  | emptyObject _ => exact ⟨_, _, rfl, Or.inl (by decide)⟩
  | object _ _ => exact ⟨_, _, rfl, Or.inl (by decide)⟩

theorem LaysItems.exists_opens {text : List Char} {items : List Json} (h : LaysItems text items) :
    ∃ c cs, text = c :: cs ∧ Opens c := by
  cases h with
  | last hvalue _ =>
      obtain ⟨c, cs, htext, hc⟩ := hvalue.exists_opens
      exact ⟨c, _, by rw [htext, List.cons_append], hc⟩
  | cons hvalue _ _ _ =>
      obtain ⟨c, cs, htext, hc⟩ := hvalue.exists_opens
      exact ⟨c, _, by rw [htext, List.cons_append], hc⟩

theorem LaysMembers.exists_quote {text : List Char} {members : List (List StringPiece × Json)}
    (h : LaysMembers text members) : ∃ cs, text = '"' :: cs := by
  cases h with
  | last _ _ _ _ _ => exact ⟨_, rfl⟩
  | cons _ _ _ _ _ _ _ => exact ⟨_, rfl⟩

/-- Nothing that is laid out is marked broken. -/
theorem Lays.isBroken_eq_false {text : List Char} {value : Json} (h : Lays text value) :
    value.isBroken = false := by
  cases h <;> rfl

/-! ## The reader, one token at a time -/

section Reader

variable {gap cs rest : List Char}

theorem readValue_number (fuel : Nat) {n : Numeral} (hgap : Gap gap) (hn : n.IsProper)
    (hrest : Numeral.EndsNumeral rest) :
    readValue (fuel + 1) (gap ++ (n.text ++ rest)) = (number n, rest) := by
  have htake := Numeral.take?_text hn hrest
  obtain ⟨c, cs, htext, hc⟩ := hn.exists_begins
  rw [htext, List.cons_append] at htake ⊢
  -- the first character is neither a mark nor a letter
  have hplain : takePlain (c :: (cs ++ rest)) = (number n, rest) := by
    unfold takePlain
    split
    · rename_i heq
      exact absurd (List.cons.inj heq).1 (hc.ne (by decide) (by decide))
    · rename_i heq
      exact absurd (List.cons.inj heq).1 (hc.ne (by decide) (by decide))
    · rename_i heq
      exact absurd (List.cons.inj heq).1 (hc.ne (by decide) (by decide))
    · rw [htake]
  rw [readValue, skipSpace_gap hgap, skipSpace_cons (isSpace_of_begins hc)]
  split
  · rename_i heq
    exact absurd (List.cons.inj heq).1 (hc.ne (by decide) (by decide))
  · rename_i heq
    exact absurd (List.cons.inj heq).1 (hc.ne (by decide) (by decide))
  · rename_i heq
    exact absurd (List.cons.inj heq).1 (hc.ne (by decide) (by decide))
  · exact hplain

theorem readValue_string (fuel : Nat) {pieces : List StringPiece} (hgap : Gap gap)
    (hpieces : ∀ piece ∈ pieces, piece.IsProper) :
    readValue (fuel + 1) (gap ++ '"' :: (writtenPieces pieces ++ '"' :: rest)) = (string pieces, rest) := by
  rw [readValue, skipSpace_gap hgap, skipSpace_cons (by decide)]
  simp only [takeString?_writtenPieces hpieces]

theorem readValue_emptyArray (fuel : Nat) {a : List Char} (hgap : Gap gap) (ha : Gap a) :
    readValue (fuel + 1) (gap ++ '[' :: (a ++ ']' :: rest)) = (array [] true, rest) := by
  have hclosing : skipSpace (a ++ ']' :: rest) = ']' :: rest := skipSpace_gap ha _
  rw [readValue, skipSpace_gap hgap, skipSpace_cons (by decide)]
  simp only [hclosing]

theorem readValue_array (fuel : Nat) {a : List Char} {c : Char} {items : List Json} {closed : Bool}
    (hgap : Gap gap) (ha : Gap a) (hc : Opens c)
    (h : readItems fuel (c :: cs) = (items, closed, rest)) :
    readValue (fuel + 1) (gap ++ '[' :: (a ++ c :: cs)) = (array items closed, rest) := by
  have hitem : skipSpace (a ++ c :: cs) = c :: cs := by
    rw [skipSpace_gap ha, skipSpace_cons hc.isSpace_eq_false]
  rw [readValue, skipSpace_gap hgap, skipSpace_cons (by decide)]
  simp only [hitem]
  split
  · rename_i heq
    exact absurd (List.cons.inj heq).1 hc.ne_closing
  · rw [h]

theorem readValue_emptyObject (fuel : Nat) {a : List Char} (hgap : Gap gap) (ha : Gap a) :
    readValue (fuel + 1) (gap ++ '{' :: (a ++ '}' :: rest)) = (object [] true, rest) := by
  have hclosing : skipSpace (a ++ '}' :: rest) = '}' :: rest := skipSpace_gap ha _
  rw [readValue, skipSpace_gap hgap, skipSpace_cons (by decide)]
  simp only [hclosing]

theorem readValue_object (fuel : Nat) {a : List Char} {members : List (List StringPiece × Json)}
    {closed : Bool} (hgap : Gap gap) (ha : Gap a)
    (h : readMembers fuel ('"' :: cs) = (members, closed, rest)) :
    readValue (fuel + 1) (gap ++ '{' :: (a ++ '"' :: cs)) = (object members closed, rest) := by
  have hname : skipSpace (a ++ '"' :: cs) = '"' :: cs := skipSpace_gap ha _
  rw [readValue, skipSpace_gap hgap, skipSpace_cons (by decide)]
  simp only [hname]
  split
  · rename_i heq
    exact absurd (List.cons.inj heq).1 (by decide)
  · rw [h]

theorem readItems_last (fuel : Nat) {a text : List Char} {value : Json}
    (hvalue : readValue fuel text = (value, a ++ ']' :: rest)) (hbroken : value.isBroken = false)
    (ha : Gap a) : readItems (fuel + 1) text = ([value], true, rest) := by
  have hclosing : skipSpace (a ++ ']' :: rest) = ']' :: rest := skipSpace_gap ha _
  rw [readItems]
  simp only [hvalue, hbroken, Bool.false_eq_true, if_false, hclosing]

theorem readItems_cons (fuel : Nat) {a text : List Char} {value : Json} {items : List Json} {closed : Bool}
    (hvalue : readValue fuel text = (value, a ++ ',' :: cs)) (hbroken : value.isBroken = false)
    (ha : Gap a) (h : readItems fuel cs = (items, closed, rest)) :
    readItems (fuel + 1) text = (value :: items, closed, rest) := by
  have hcomma : skipSpace (a ++ ',' :: cs) = ',' :: cs := skipSpace_gap ha _
  rw [readItems]
  simp only [hvalue, hbroken, Bool.false_eq_true, if_false, hcomma, h]

theorem readMembers_last (fuel : Nat) {a c : List Char} {name : List StringPiece} {value : Json}
    (hgap : Gap gap) (hname : ∀ piece ∈ name, piece.IsProper) (ha : Gap a)
    (hvalue : readValue fuel cs = (value, c ++ '}' :: rest)) (hbroken : value.isBroken = false)
    (hc : Gap c) :
    readMembers (fuel + 1) (gap ++ '"' :: (writtenPieces name ++ '"' :: (a ++ ':' :: cs))) =
      ([(name, value)], true, rest) := by
  have hcolon : skipSpace (a ++ ':' :: cs) = ':' :: cs := skipSpace_gap ha _
  have hclosing : skipSpace (c ++ '}' :: rest) = '}' :: rest := skipSpace_gap hc _
  rw [readMembers, skipSpace_gap hgap, skipSpace_cons (by decide)]
  simp only [takeString?_writtenPieces hname, hcolon, hvalue, hbroken, Bool.false_eq_true, if_false,
    hclosing]

theorem readMembers_cons (fuel : Nat) {a c next : List Char} {name : List StringPiece} {value : Json}
    {members : List (List StringPiece × Json)} {closed : Bool}
    (hgap : Gap gap) (hname : ∀ piece ∈ name, piece.IsProper) (ha : Gap a)
    (hvalue : readValue fuel cs = (value, c ++ ',' :: next)) (hbroken : value.isBroken = false)
    (hc : Gap c) (h : readMembers fuel next = (members, closed, rest)) :
    readMembers (fuel + 1) (gap ++ '"' :: (writtenPieces name ++ '"' :: (a ++ ':' :: cs))) =
      ((name, value) :: members, closed, rest) := by
  have hcolon : skipSpace (a ++ ':' :: cs) = ':' :: cs := skipSpace_gap ha _
  have hcomma : skipSpace (c ++ ',' :: next) = ',' :: next := skipSpace_gap hc _
  rw [readMembers, skipSpace_gap hgap, skipSpace_cons (by decide)]
  simp only [takeString?_writtenPieces hname, hcolon, hvalue, hbroken, Bool.false_eq_true, if_false,
    hcomma, h]

end Reader

/-! ## The reader finds what is laid out -/

/-- Blanks and a mark behind them, where a numeral cannot go on. -/
theorem endsNumeral_gap {gap : List Char} (h : Gap gap) (c : Char) (cs : List Char)
    (hc : c ∈ [',', ']', '}']) : Numeral.EndsNumeral (gap ++ c :: cs) := by
  intro d hd
  have hall : ∀ d ∈ [',', ']', '}', ' ', '\n', '\t', '\r'],
      d.isDigit = false ∧ d ≠ '.' ∧ d ≠ 'e' ∧ d ≠ 'E' := by simp
  cases gap with
  | nil =>
      rw [← Option.some.inj hd]
      exact hall c (List.mem_append_left [' ', '\n', '\t', '\r'] hc)
  | cons e gap =>
      have hspace : isSpace e = true := h e List.mem_cons_self
      rw [← Option.some.inj hd]
      refine hall e (List.mem_append_right [',', ']', '}'] ?_)
      simpa [isSpace, or_assoc] using hspace

mutual

/-- **The reader finds the value of every text that lays one out**, behind any blanks and in front of
anything that a numeral cannot go on with. -/
theorem Lays.readValue {text : List Char} {value : Json} (h : Lays text value) (fuel : Nat)
    {gap : List Char} (rest : List Char) (hgap : Gap gap) (hrest : Numeral.EndsNumeral rest) (hfuel : text.length ≤ fuel) :
    readValue fuel (gap ++ (text ++ rest)) = (value, rest) := by
  -- by recursion on how the text is laid out: every call into a list or an object costs one unit of fuel,
  -- and the bracket that it passes pays for it
  obtain ⟨c, cs, htext, -⟩ := h.exists_opens
  obtain ⟨fuel, rfl⟩ : ∃ n, fuel = n + 1 := by
    rw [htext, List.length_cons] at hfuel
    exact ⟨fuel - 1, by omega⟩
  cases h with
  | null =>
      rw [Json.readValue, skipSpace_gap hgap]
      rfl
  | boolTrue =>
      rw [Json.readValue, skipSpace_gap hgap]
      rfl
  | boolFalse =>
      rw [Json.readValue, skipSpace_gap hgap]
      rfl
  | number hn => exact readValue_number fuel hgap hn hrest
  | string hpieces =>
      rw [List.cons_append, List.append_assoc, List.singleton_append]
      exact readValue_string fuel hgap hpieces
  | emptyArray ha =>
      rw [List.cons_append, List.append_assoc, List.singleton_append]
      exact readValue_emptyArray fuel hgap ha
  | @array a text items ha hitems =>
      -- the first item opens with something else than the closing bracket, so the list is not taken for an empty one
      obtain ⟨d, ds, htext, hd⟩ := hitems.exists_opens
      have hread := hitems.readItems fuel rest gap_nil (by
        rw [List.length_cons, List.length_append] at hfuel
        omega)
      rw [List.cons_append, List.append_assoc, htext, List.cons_append]
      exact readValue_array fuel hgap ha hd (by rw [← hread, htext]; rfl)
  | emptyObject ha =>
      rw [List.cons_append, List.append_assoc, List.singleton_append]
      exact readValue_emptyObject fuel hgap ha
  | @object a text members ha hmembers =>
      obtain ⟨ds, htext⟩ := hmembers.exists_quote
      have hread := hmembers.readMembers fuel rest gap_nil (by
        rw [List.length_cons, List.length_append] at hfuel
        omega)
      rw [List.cons_append, List.append_assoc, htext, List.cons_append]
      exact readValue_object fuel hgap ha (by rw [← hread, htext]; rfl)

theorem LaysItems.readItems {text : List Char} {items : List Json} (h : LaysItems text items) (fuel : Nat)
    {gap : List Char} (rest : List Char) (hgap : Gap gap) (hfuel : text.length ≤ fuel) :
    readItems fuel (gap ++ (text ++ rest)) = (items, true, rest) := by
  obtain ⟨c, cs, htext, -⟩ := h.exists_opens
  obtain ⟨fuel, rfl⟩ : ∃ n, fuel = n + 1 := by
    rw [htext, List.length_cons] at hfuel
    exact ⟨fuel - 1, by omega⟩
  cases h with
  | @last a text value hvalue ha =>
      have hread := hvalue.readValue fuel (a ++ ']' :: rest) hgap (endsNumeral_gap ha ']' rest (by decide)) (by
        rw [List.length_append, List.length_append, List.length_singleton] at hfuel
        omega)
      rw [List.append_assoc, List.append_assoc, List.singleton_append]
      exact readItems_last fuel hread hvalue.isBroken_eq_false ha
  | @cons a b text next value items hvalue ha hb hitems =>
      rw [List.length_append, List.length_append, List.length_cons, List.length_append] at hfuel
      have hread := hvalue.readValue fuel (a ++ ',' :: (b ++ (next ++ rest))) hgap
        (endsNumeral_gap ha ',' _ (by decide)) (by omega)
      have hnext := hitems.readItems fuel rest hb (by omega)
      rw [List.append_assoc, List.append_assoc, List.cons_append, List.append_assoc]
      exact readItems_cons fuel hread hvalue.isBroken_eq_false ha hnext

theorem LaysMembers.readMembers {text : List Char} {members : List (List StringPiece × Json)}
    (h : LaysMembers text members) (fuel : Nat) {gap : List Char} (rest : List Char) (hgap : Gap gap)
    (hfuel : text.length ≤ fuel) : readMembers fuel (gap ++ (text ++ rest)) = (members, true, rest) := by
  obtain ⟨cs, htext⟩ := h.exists_quote
  obtain ⟨fuel, rfl⟩ : ∃ n, fuel = n + 1 := by
    rw [htext, List.length_cons] at hfuel
    exact ⟨fuel - 1, by omega⟩
  cases h with
  | @last a b c text name value hname ha hb hvalue hc =>
      simp only [List.length_cons, List.length_append] at hfuel
      have hread := hvalue.readValue fuel (c ++ '}' :: rest) hb (endsNumeral_gap hc '}' rest (by decide)) (by omega)
      simp only [List.cons_append, List.append_assoc, List.nil_append]
      exact readMembers_last fuel hgap hname ha hread hvalue.isBroken_eq_false hc
  | @cons a b c d text next name value members hname ha hb hvalue hc hd hmembers =>
      simp only [List.length_cons, List.length_append] at hfuel
      have hread := hvalue.readValue fuel (c ++ ',' :: (d ++ (next ++ rest))) hb
        (endsNumeral_gap hc ',' _ (by decide)) (by omega)
      have hnext := hmembers.readMembers fuel rest hd (by omega)
      simp only [List.cons_append, List.append_assoc]
      exact readMembers_cons fuel hgap hname ha hread hvalue.isBroken_eq_false hc hnext

end

theorem endsNumeral_of_gap {gap : List Char} (h : Gap gap) : Numeral.EndsNumeral gap := by
  intro c hc
  have hall : ∀ c ∈ [' ', '\n', '\t', '\r'], c.isDigit = false ∧ c ≠ '.' ∧ c ≠ 'e' ∧ c ≠ 'E' := by simp
  have hspace : isSpace c = true := h c (List.mem_of_head? hc)
  exact hall c (by simpa [isSpace, or_assoc] using hspace)

/-- A whole text is read as the value that it lays out, and nothing of it is left over. -/
theorem Lays.read {text before after : List Char} {value : Json} (h : Lays text value) (hbefore : Gap before)
    (hafter : Gap after) : read (String.ofList (before ++ (text ++ after))) = (value, true) := by
  have hvalue : Json.readValue (2 * (before ++ (text ++ after)).length + 1) (before ++ (text ++ after)) =
      (value, after) := by
    refine h.readValue _ after hbefore (endsNumeral_of_gap hafter) ?_
    rw [List.length_append, List.length_append]
    omega
  -- only blanks are left over
  have hrest : skipSpace after = [] := by
    have hskip := skipSpace_gap hafter []
    rw [List.append_nil] at hskip
    exact hskip
  unfold Json.read
  rw [String.toList_ofList]
  dsimp only
  rw [hvalue, hrest]
  rfl

/-- The same without blanks around it. -/
theorem Lays.read_ofList {text : List Char} {value : Json} (h : Lays text value) :
    Json.read (String.ofList text) = (value, true) := by
  have hread := h.read gap_nil gap_nil
  rwa [List.nil_append, List.append_nil] at hread

/-! ## What is written compactly -/

/-- The values whose text is JSON: nothing in them is marked broken, and all numerals and strings are ones that
JSON knows. -/
inductive IsPrintable : Json → Prop
  | null : IsPrintable null
  | bool (value : Bool) : IsPrintable (bool value)
  | number {n : Numeral} : n.IsProper → IsPrintable (number n)
  | string {pieces : List StringPiece} : (∀ piece ∈ pieces, piece.IsProper) → IsPrintable (string pieces)
  | array {items : List Json} : (∀ item ∈ items, IsPrintable item) → IsPrintable (array items true)
  | object {members : List (List StringPiece × Json)} :
      (∀ member ∈ members, ∀ piece ∈ member.1, piece.IsProper) →
      (∀ member ∈ members, IsPrintable member.2) → IsPrintable (object members true)

theorem isPrintable_ofText (text : String) : (ofText text).IsPrintable :=
  .string isProper_of_mem_piecesOfText

theorem isPrintable_ofNat (n : Nat) : (ofNat n).IsPrintable :=
  .number (Numeral.isProper_ofNat n)

theorem isPrintable_ofMembers {members : List (String × Json)} (h : ∀ member ∈ members, member.2.IsPrintable) :
    (ofMembers members).IsPrintable := by
  refine .object ?_ ?_
  · intro member hmember
    obtain ⟨named, -, rfl⟩ := List.mem_map.mp hmember
    exact isProper_of_mem_piecesOfText
  · intro member hmember
    obtain ⟨named, hnamed, rfl⟩ := List.mem_map.mp hmember
    exact h named hnamed

theorem laysItems_compact {items : List Json} (hne : items ≠ []) (h : ∀ item ∈ items, Lays item.compact item) :
    LaysItems (compactItems items ++ [']']) items := by
  induction items with
  | nil => exact absurd rfl hne
  | cons item items ih =>
      have hitem := h item List.mem_cons_self
      cases items with
      | nil =>
          have hlast := LaysItems.last hitem gap_nil
          rwa [List.nil_append] at hlast
      | cons next items =>
          have hrest := ih (List.cons_ne_nil next items) fun other hother => h other (List.mem_cons_of_mem item hother)
          have hcons := LaysItems.cons hitem gap_nil gap_nil hrest
          rw [compactItems, List.append_assoc]
          · exact hcons
          · simp

theorem laysMembers_compact {members : List (List StringPiece × Json)} (hne : members ≠ [])
    (hnames : ∀ member ∈ members, ∀ piece ∈ member.1, piece.IsProper)
    (h : ∀ member ∈ members, Lays member.2.compact member.2) :
    LaysMembers (compactMembers members ++ ['}']) members := by
  induction members with
  | nil => exact absurd rfl hne
  | cons member members ih =>
      obtain ⟨name, value⟩ := member
      have hname := hnames (name, value) List.mem_cons_self
      have hvalue := h (name, value) List.mem_cons_self
      cases members with
      | nil =>
          have hlast := LaysMembers.last hname gap_nil gap_nil hvalue gap_nil
          simp only [List.nil_append] at hlast
          simp only [compactMembers, List.cons_append, List.append_assoc]
          exact hlast
      | cons next members =>
          have hrest := ih (List.cons_ne_nil next members)
            (fun other hother => hnames other (List.mem_cons_of_mem _ hother))
            fun other hother => h other (List.mem_cons_of_mem _ hother)
          have hcons := LaysMembers.cons hname gap_nil gap_nil hvalue gap_nil gap_nil hrest
          simp only [List.nil_append] at hcons
          simp only [compactMembers, List.cons_append, List.append_assoc]
          exact hcons

/-- What is written on one line lays the value out. -/
theorem IsPrintable.lays_compact {value : Json} (h : value.IsPrintable) : Lays value.compact value := by
  induction h with
  | null => exact .null
  | bool value =>
      cases value with
      | true => exact .boolTrue
      | false => exact .boolFalse
  | number hn => exact .number hn
  | string hpieces => exact .string hpieces
  | @array items _ ih =>
      cases items with
      | nil => exact .emptyArray gap_nil
      | cons item items => exact .array (a := []) gap_nil (laysItems_compact (List.cons_ne_nil item items) ih)
  | @object members hnames _ ih =>
      cases members with
      | nil => exact .emptyObject gap_nil
      | cons member members =>
          exact .object (a := []) gap_nil (laysMembers_compact (List.cons_ne_nil member members) hnames ih)

/-- **What is written on one line is read as the value it was written for.** -/
theorem IsPrintable.read_toCompactText {value : Json} (h : value.IsPrintable) :
    Json.read value.toCompactText = (value, true) :=
  h.lays_compact.read_ofList

end RecipeScript.Json
