import Mathlib.Data.List.Forall2
import RecipeScript.Proofs.YamlMarks
import RecipeScript.Yaml.Lexer

/-!
# Remembered names

A place where a name may have begun is remembered until it turns out whether one did. If so, the mark is put there
after the fact, so the tokens of a quiet text stay good only if each place that is remembered is fit for a mark. That
is what `Kept` says of all of them, from the innermost level of brackets and braces to the outermost one.

A mark moves all tokens behind it. The places of the outer levels come before those of the inner ones, so the mark of an
inner name does not move them (`Kept.insert`), and the place that is marked is forgotten.
-/

namespace RecipeScript.Yaml

namespace Lexer

open Token (Good flowDepth)

/-- The name that `token` begins and that is remembered with the place after `before` can be marked there: inside
brackets and braces in any case, outside of them if the mark begins a block or the name begins with a foreign blank. -/
structure FitsMark (indent : Int) (tokens : List Token) (depth : Nat) (name : PendingName) (token : Token)
    (before : List Token) : Prop where
  suffix : token :: before <:+ tokens
  place : before.length = name.place
  good : Good before
  notKey : token ≠ .key
  depth_eq : flowDepth before = depth
  begins : depth = 0 → indent < (name.column : Int) ∨ token.IsForeign
  first : before = [] → indent < (name.column : Int) ∧ token.IsForeign

/-- Every name that is remembered can be marked, and those of the outer levels have earlier places. -/
def Kept (indent : Int) (tokens : List Token) : List (Option PendingName) → Prop
  | [] => True
  | pending :: outer =>
    (∀ name ∈ pending, (∃ token before, FitsMark indent tokens outer.length name token before)
      ∧ ∀ other, some other ∈ outer → other.place < name.place) ∧ Kept indent tokens outer

section Kept

variable {indent indent' : Int} {tokens tokens' : List Token} {pending : Option PendingName}
  {outer outer' : List (Option PendingName)}

theorem FitsMark.mono {depth : Nat} {name : PendingName} {token : Token} {before : List Token}
    (h : FitsMark indent tokens depth name token before) (hindent : indent' ≤ indent)
    (htokens : token :: before <:+ tokens') : FitsMark indent' tokens' depth name token before where
  suffix := htokens
  place := h.place
  good := h.good
  notKey := h.notKey
  depth_eq := h.depth_eq
  begins := fun hzero => (h.begins hzero).imp_left fun hlt => Int.lt_of_le_of_lt hindent hlt
  first := fun hnil => (h.first hnil).imp_left fun hlt => Int.lt_of_le_of_lt hindent hlt

/-- Tokens may follow, and blocks may end. -/
theorem Kept.mono (h : Kept indent tokens outer) (hindent : indent' ≤ indent) (htokens : tokens <:+ tokens') :
    Kept indent' tokens' outer := by
  induction outer with
  | nil => trivial
  | cons pending outer ih =>
      refine ⟨fun name hname => ?_, ih h.2⟩
      obtain ⟨⟨token, before, hfits⟩, hplaces⟩ := h.1 name hname
      exact ⟨⟨token, before, hfits.mono hindent (hfits.suffix.trans htokens)⟩, hplaces⟩

theorem Kept.push (h : Kept indent tokens outer) : Kept indent tokens (none :: outer) :=
  ⟨fun name hname => absurd hname (by simp), h⟩

theorem Kept.forget (h : Kept indent tokens (pending :: outer)) : Kept indent tokens (none :: outer) :=
  h.2.push

theorem Kept.place_lt (h : Kept indent tokens outer) {name : PendingName} (hname : some name ∈ outer) :
    name.place < tokens.length := by
  induction outer with
  | nil => exact absurd hname (by simp)
  | cons pending outer ih =>
      rcases List.mem_cons.mp hname with hpending | houter
      · obtain ⟨⟨token, before, hfits⟩, -⟩ := h.1 name hpending.symm
        have hlength := hfits.suffix.length_le
        have hplace := hfits.place
        rw [List.length_cons] at hlength
        omega
      · exact ih h.2 houter

/-- Names may be forgotten. -/
theorem Kept.of_forall₂ (h : Kept indent tokens outer)
    (hsome : List.Forall₂ (fun new old : Option PendingName => new = none ∨ new = old) outer' outer) :
    Kept indent tokens outer' := by
  induction hsome with
  | nil => trivial
  | @cons new old news olds hnew hnews ih =>
      have hmem : ∀ other, some other ∈ news → some other ∈ olds := by
        intro other hother
        obtain ⟨i, hi, hget⟩ := List.mem_iff_getElem.mp hother
        have hlength := hnews.length_eq
        rcases hnews.get hi (hlength ▸ hi) with hnone | hsame
        · simp only [List.get_eq_getElem] at hnone
          exact absurd (hget.symm.trans hnone) (by simp)
        · simp only [List.get_eq_getElem] at hsame
          rw [← hget, hsame]
          exact List.getElem_mem _
      refine ⟨fun name hname => ?_, ih h.2⟩
      rcases hnew with rfl | rfl
      · exact absurd hname (by simp)
      · obtain ⟨hfits, hplaces⟩ := h.1 name hname
        rw [hnews.length_eq]
        exact ⟨hfits, fun other hother => hplaces other (hmem other hother)⟩

/-- Outside of brackets and braces there is one level. -/
theorem kept_none : Kept indent tokens [none] :=
  Kept.push trivial

theorem insertIdx_length_append {α : Type} (xs ys : List α) (y : α) :
    (xs ++ ys).insertIdx xs.length y = xs ++ y :: ys := by
  induction xs with
  | nil => rfl
  | cons x xs ih => exact congrArg (x :: ·) ih

/-- A mark that is put behind the places of all names that are remembered leaves them where they are. -/
theorem Kept.insert {after before : List Token} (marks : List Token) (h : Kept indent (after ++ before) outer)
    (hplaces : ∀ other, some other ∈ outer → other.place < before.length) :
    Kept indent (after ++ (marks ++ before)) outer := by
  induction outer with
  | nil => trivial
  | cons pending outer ih =>
      refine ⟨fun name hname => ?_, ih h.2 fun other hother => hplaces other (List.mem_cons_of_mem _ hother)⟩
      obtain ⟨⟨token, front, hfits⟩, hearlier⟩ := h.1 name hname
      have hplace : name.place < before.length := hplaces name (by rw [Option.mem_def.mp hname]; exact List.mem_cons_self)
      have hlength : (token :: front).length ≤ before.length := by
        rw [List.length_cons, hfits.place]
        exact hplace
      have hbefore : token :: front <:+ before :=
        List.suffix_of_suffix_length_le hfits.suffix (List.suffix_append after before) hlength
      have hsuffix : token :: front <:+ after ++ (marks ++ before) :=
        (hbefore.trans (List.suffix_append marks before)).trans (List.suffix_append after _)
      exact ⟨⟨token, front, hfits.mono (Int.le_refl _) hsuffix⟩, hearlier⟩

end Kept

end Lexer

end RecipeScript.Yaml
