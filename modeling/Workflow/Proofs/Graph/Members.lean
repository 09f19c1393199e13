import Mathlib.Tactic
import Workflow.Graph.Reading

/-!
# Members of mappings

The members of a mapping are set by name, and read by name. A name that is set occurs once, and what
was set last is what is found under it.
-/

namespace Workflow

/-! ### Setting members -/

section SetMember

variable {κ α : Type} [DecidableEq κ]

lemma map_fst_setMember (members : List (κ × α)) (name : κ) (a : α) :
    (Value.setMember members name a).map Prod.fst =
      if name ∈ members.map Prod.fst then members.map Prod.fst
      else members.map Prod.fst ++ [name] := by
  induction members with
  | nil => rfl
  | cons m members ih =>
    obtain ⟨k, b⟩ := m
    by_cases hk : k = name
    · simp [Value.setMember, hk]
    · simp only [Value.setMember, if_neg hk, List.map_cons, ih, List.mem_cons, Ne.symm hk, false_or]
      split_ifs <;> rfl

/-- A name that is set occurs once, as do all others if they did before. -/
lemma nodup_setMember {members : List (κ × α)} (h : (members.map Prod.fst).Nodup) (name : κ)
    (a : α) : ((Value.setMember members name a).map Prod.fst).Nodup := by
  rw [map_fst_setMember]
  split_ifs with hname
  · exact h
  · exact h.append (List.nodup_singleton name) (by simpa using hname)

lemma mem_setMember {members : List (κ × α)} {name : κ} {a : α} {m : κ × α}
    (h : m ∈ Value.setMember members name a) : m ∈ members ∨ m = (name, a) := by
  induction members with
  | nil => exact .inr (List.mem_singleton.1 h)
  | cons first members ih =>
    obtain ⟨k, b⟩ := first
    rw [Value.setMember] at h
    split_ifs at h with hk
    · rcases List.mem_cons.1 h with rfl | hm
      · exact .inr (by rw [hk])
      · exact .inl (List.mem_cons_of_mem _ hm)
    · rcases List.mem_cons.1 h with rfl | hm
      · exact .inl List.mem_cons_self
      · exact (ih hm).imp_left (List.mem_cons_of_mem _)

lemma lookup_cons_if (m : κ × α) (members : List (κ × α)) (k : κ) :
    (m :: members).lookup k = if k = m.1 then some m.2 else members.lookup k := by
  rw [List.lookup_cons]
  by_cases hk : k = m.1
  · rw [if_pos hk, beq_iff_eq.2 hk]
  · rw [if_neg hk, beq_eq_false_iff_ne.2 hk]

lemma lookup_eq_none_iff_not_mem {members : List (κ × α)} {k : κ} :
    members.lookup k = none ↔ k ∉ members.map Prod.fst := by
  induction members with
  | nil => simp
  | cons m members ih => by_cases hk : k = m.1 <;> simp [lookup_cons_if, hk, ih]

lemma lookup_setMember (members : List (κ × α)) (name : κ) (a : α) (k : κ) :
    (Value.setMember members name a).lookup k = if k = name then some a else members.lookup k := by
  induction members with
  | nil => exact lookup_cons_if _ _ k
  | cons m members ih =>
    obtain ⟨k', b⟩ := m
    by_cases hk' : k' = name
    · simp only [Value.setMember, hk', if_true, lookup_cons_if]
      split_ifs <;> rfl
    · simp only [Value.setMember, if_neg hk', lookup_cons_if, ih]
      by_cases hk : k = k'
      · simp [hk, hk']
      · simp [hk]

/-- Setting members one after the other, each name once, sets them all. -/
lemma lookup_foldl_setMember {changes : List (κ × α)} (h : (changes.map Prod.fst).Nodup)
    (members : List (κ × α)) (k : κ) :
    (changes.foldl (fun found m => Value.setMember found m.1 m.2) members).lookup k
      = (changes.lookup k).or (members.lookup k) := by
  induction changes generalizing members with
  | nil => rfl
  | cons m changes ih =>
    obtain ⟨hname, hlater⟩ := List.nodup_cons.1 h
    rw [List.foldl_cons, ih hlater, lookup_setMember, lookup_cons_if]
    by_cases hk : k = m.1
    · have hnone : changes.lookup k = none := lookup_eq_none_iff_not_mem.2 (hk ▸ hname)
      simp [hk ▸ hnone, hk]
    · simp [hk]

lemma nodup_foldl_setMember (changes : List (κ × α)) {members : List (κ × α)}
    (h : (members.map Prod.fst).Nodup) :
    ((changes.foldl (fun found m => Value.setMember found m.1 m.2) members).map
      Prod.fst).Nodup := by
  induction changes generalizing members with
  | nil => exact h
  | cons m changes ih => exact ih (nodup_setMember h m.1 m.2)

end SetMember

/-! ### Reading members -/

section Reading

variable {α : Type} {ms : Members} {known : List String} {extras : List (String × Value)}

lemma Reading.within_eq_ok_iff {r : Reading α} {step : Step} {a : α} :
    r.within step = .ok a ↔ r = .ok a := by
  cases r <;> simp [within]

/-- What is read from bytes is read from their text. -/
lemma Reading.of_fromBytes {b : List UInt8} {broken : Reading α} {read : String → Reading α} {a : α}
    (h : fromBytes b broken read = .ok a) (hbroken : broken ≠ .ok a) :
    read (Document.bytesText b) = .ok a := by
  rw [fromBytes] at h
  rw [Document.bytesText]
  cases hdecode : Text.decodeUtf8 b.toByteArray with
  | ok s => rwa [hdecode] at h
  | error f =>
    rw [hdecode] at h
    exact absurd h hbroken

/-- What is read as a text is a text, or bytes that are one. -/
lemma Reading.toValue_of_text {d : Document} {s : String} (h : text d = .ok s) :
    d.toValue = .str s := by
  cases d with
  | str t => exact congrArg Value.str (ok.inj h)
  | bytes b => exact congrArg Value.str (ok.inj (of_fromBytes h nofun))
  | _ => cases h

lemma Members.required_eq_ok_iff {name : String} {read : Document → Reading α} {a : α} :
    ms.required name [] read = .ok a ↔ ∃ d, ms.find? name = some d ∧ read d = .ok a := by
  rw [required, Members.read, findFirst?]
  cases ms.find? name <;> simp [findFirst?, Reading.within_eq_ok_iff, Reading.fault]

lemma Members.optional_eq_ok_iff {name : String} {standard : α} {read : Document → Reading α}
    {a : α} : ms.optional name [] standard read = .ok a ↔
      (∃ d, ms.find? name = some d ∧ read d = .ok a) ∨ ms.find? name = none ∧ a = standard := by
  rw [optional, Members.read, findFirst?]
  cases ms.find? name with
  | none => simp [findFirst?, eq_comm]
  | some d => simp [Reading.within_eq_ok_iff]

lemma Members.find?_cons {m : Document.Key × Document} {other : String} (h : m.1 = .text other)
    (name : String) :
    Members.find? (m :: ms) name = if name = other then some m.2 else ms.find? name := by
  rw [find?, find?, lookup_cons_if, h]
  simp only [Document.Key.text.injEq]

/-- All members have names that are texts, and those that are not known are kept as values. -/
lemma of_readExtras_cons {m : Document.Key × Document}
    (h : readExtras known (m :: ms) = .ok extras) : ∃ name, m.1 = .text name ∧
      (name ∈ known ∧ readExtras known ms = .ok extras ∨
        name ∉ known ∧ ∃ rest, readExtras known ms = .ok rest ∧
          extras = (name, m.2.toValue) :: rest) := by
  obtain ⟨key, d⟩ := m
  cases key with
  | text name =>
    refine ⟨name, rfl, ?_⟩
    rw [readExtras] at h
    split_ifs at h with hname
    · exact .inl ⟨by simpa using hname, h⟩
    · obtain ⟨rest, hrest, rfl⟩ := Reading.map_eq_ok_iff.1 h
      exact .inr ⟨by simpa using hname, rest, hrest, rfl⟩
  | _ =>
    obtain ⟨_, _, hfault, -, -⟩ := Reading.seq_eq_ok_iff.1 h
    obtain ⟨_, hfault, -⟩ := Reading.map_eq_ok_iff.1 hfault
    cases hfault

lemma lookup_of_readExtras (h : readExtras known ms = .ok extras) (name : String) :
    extras.lookup name = if name ∈ known then none else (ms.find? name).map Document.toValue := by
  induction ms generalizing extras with
  | nil =>
    obtain rfl : [] = extras := Reading.ok.inj h
    simp [Members.find?]
  | cons m ms ih =>
    obtain ⟨other, hother, ⟨hmem, hrest⟩ | ⟨hmem, rest, hrest, rfl⟩⟩ := of_readExtras_cons h
    · rw [ih hrest, Members.find?_cons hother]
      by_cases hname : name = other
      · simp [hname, hmem]
      · simp [hname]
    · rw [lookup_cons_if, ih hrest, Members.find?_cons hother]
      by_cases hname : name = other
      · simp [hname, hmem]
      · simp [hname]

lemma sublist_of_readExtras (h : readExtras known ms = .ok extras) :
    ((extras.map Prod.fst).map Document.Key.text).Sublist (ms.map Prod.fst) := by
  induction ms generalizing extras with
  | nil =>
    obtain rfl : [] = extras := Reading.ok.inj h
    exact List.Sublist.slnil
  | cons m ms ih =>
    obtain ⟨name, hname, ⟨-, hrest⟩ | ⟨-, rest, hrest, rfl⟩⟩ := of_readExtras_cons h
    · exact (ih hrest).cons _
    · simp only [List.map_cons, hname]
      exact (ih hrest).cons_cons _

lemma nodup_of_readExtras (h : readExtras known ms = .ok extras)
    (hms : (ms.map Prod.fst).Nodup) : (extras.map Prod.fst).Nodup :=
  .of_map _ (hms.sublist (sublist_of_readExtras h))

end Reading

/-! ### Members of values -/

lemma lookup_ofMembers (members : List (String × Value)) (name : String) :
    Members.find? (Document.ofMembers members) name
      = (members.lookup name).map Document.ofValue := by
  induction members with
  | nil => rfl
  | cons m members ih =>
    rw [Document.ofMembers, Members.find?_cons rfl, lookup_cons_if, ih]
    by_cases hname : name = m.1 <;> simp [hname]

lemma map_fst_ofMembers (members : List (String × Value)) :
    (Document.ofMembers members).map Prod.fst = (members.map Prod.fst).map .text := by
  induction members with
  | nil => rfl
  | cons m members ih => rw [Document.ofMembers, List.map_cons, ih]; rfl

end Workflow
