import Mathlib.Data.List.Basic

/-!
# Within and outside of strings

Whether a character of a JSON text stands within a string is known from what comes before it: quotes
open and close strings, and a backslash within one takes the character after it along.
-/

namespace Workflow

namespace Json

/-- Where a character of a JSON text stands. -/
inductive Place where
  | outside
  | inside
  /-- Behind a backslash within a string. -/
  | escaped
deriving DecidableEq

/-- Where the character stands that follows another one. -/
def Place.next : Place → Char → Place
  | .outside, c => if c = '"' then .inside else .outside
  | .inside, c => if c = '"' then .outside else if c = '\\' then .escaped else .inside
  | .escaped, _ => .inside

/--
A text leads from one place to another, and something holds of each of its characters that stand
outside of strings.
-/
inductive Leads (P : Char → Prop) : Place → List Char → Place → Prop where
  | nil (place : Place) : Leads P place [] place
  | cons {place place' : Place} {c : Char} {cs : List Char} (hc : place = .outside → P c)
      (hcs : Leads P (place.next c) cs place') : Leads P place (c :: cs) place'

section Leads

variable {P : Char → Prop} {c : Char} {place place' place'' : Place} {cs cs' : List Char}

lemma Leads.append (h : Leads P place cs place') (h' : Leads P place' cs' place'') :
    Leads P place (cs ++ cs') place'' := by
  induction h with
  | nil => exact h'
  | cons hc _ ih => exact .cons hc (ih h')

lemma Leads.mono {Q : Char → Prop} (h : Leads P place cs place') (hPQ : ∀ c, P c → Q c) :
    Leads Q place cs place' := by
  induction h with
  | nil => exact .nil _
  | cons hc _ ih => exact .cons (fun hplace => hPQ _ (hc hplace)) ih

/-- Something holds of a character that stands outside of strings. -/
lemma Leads.holds {Q : Char → Prop} {before after : List Char}
    (h : Leads P place (before ++ c :: after) place') (hbefore : Leads Q place before .outside) :
    P c := by
  induction before generalizing place with
  | nil =>
    cases hbefore
    cases h with
    | cons hc => exact hc rfl
  | cons d before ih =>
    cases hbefore with
    | cons _ hbefore =>
      cases h with
      | cons _ h => exact ih h hbefore

lemma leads_flatMap {α : Type} {as : List α} {text : α → List Char}
    (h : ∀ a ∈ as, Leads P place (text a) place) : Leads P place (as.flatMap text) place := by
  induction as with
  | nil => exact .nil place
  | cons a as ih =>
    obtain ⟨ha, has⟩ := List.forall_mem_cons.1 h
    exact ha.append (ih has)

/-- Characters of which none opens a string. -/
lemma leads_outside (h : ∀ c ∈ cs, c ≠ '"' ∧ P c) : Leads P .outside cs .outside := by
  induction cs with
  | nil => exact .nil .outside
  | cons c cs ih =>
    obtain ⟨⟨hquote, hc⟩, hcs⟩ := List.forall_mem_cons.1 h
    refine .cons (fun _ => hc) ?_
    rw [Place.next, if_neg hquote]
    exact ih hcs

/-- Characters within a string of which none ends or escapes anything. -/
lemma leads_inside (h : ∀ c ∈ cs, c ≠ '"' ∧ c ≠ '\\') : Leads P .inside cs .inside := by
  induction cs with
  | nil => exact .nil .inside
  | cons c cs ih =>
    obtain ⟨⟨hquote, hslash⟩, hcs⟩ := List.forall_mem_cons.1 h
    refine .cons nofun ?_
    rw [Place.next, if_neg hquote, if_neg hslash]
    exact ih hcs

/-- What a backslash takes along cannot end the string. -/
lemma leads_escape (P : Char → Prop) (c : Char) : Leads P .inside ['\\', c] .inside :=
  .cons nofun (.cons nofun (.nil .inside))

end Leads

end Json

end Workflow
