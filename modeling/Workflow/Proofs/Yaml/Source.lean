import Mathlib.Data.List.TakeWhile
import Mathlib.Tactic
import Workflow.Proofs.Text.Utf8
import Workflow.Yaml.Source

/-!
# All of a file is read

A file is read in blocks and handed out in pieces. If its bytes are those of a text that may stand
in a file, the pieces together are that text, and nothing stands in their way.
-/

namespace Workflow.Yaml

open Text

/-! ### Pieces -/

lemma map_fst_known {cs : List Char} (h : '\r' ∉ cs) (before : Nat) :
    (known before cs).map Prod.fst = cs := by
  induction cs generalizing before with
  | nil => rfl
  | cons c cs ih =>
    rw [List.mem_cons, not_or] at h
    have hc : c ≠ '\r' := Ne.symm h.1
    rw [known]
    · rw [if_neg hc, List.map_cons, ih h.2]
    · rintro rest rfl
      exact absurd rfl hc
    · rintro c' rest rfl
      exact absurd rfl hc

namespace Supply

variable {s : Supply} {fuel : Nat}

/-- A supply that goes on to the end of its file. -/
structure IsSound (s : Supply) : Prop where
  error : s.error? = none
  bytes : s.bytes ≤ s.size

/-- What is known already is the beginning of all there is. -/
lemma take_ready (s : Supply) (n : Nat) (h : n ≤ s.ready.length) :
    s.ready.take n = (s.rest.map Prod.fst).take n := by
  have hready : s.rest.map Prod.fst
      = s.ready ++ (s.rest.dropWhile (·.2 ≤ s.bytes)).map Prod.fst := by
    rw [ready, ← List.map_append, List.takeWhile_append_dropWhile]
  rw [hready, List.take_append_of_le_length h]

/-- Another block is read, unless the file has ended. -/
lemma exists_readBlock (h : s.IsSound) (missing : Nat) :
    ∃ s', s.readBlock missing = .ok s' ∧ s'.IsSound ∧ s'.rest = s.rest ∧ s'.size = s.size ∧
      (s.bytes ≠ s.size → s.bytes < s'.bytes) := by
  have hsize : blockSize ≤ s.nextSize missing := le_max_left _ _
  have hblock : 0 < blockSize := by decide
  rw [readBlock]
  split
  · next hsome => simp [h.error] at hsome
  · refine ⟨_, rfl, ⟨h.error, min_le_left _ _⟩, rfl, rfl, fun hmore => ?_⟩
    have hle := h.bytes
    change s.bytes < min s.size _
    omega

/-- A piece is the beginning of what is left, and empty only if nothing is. -/
lemma exists_nextPiece (h : s.IsSound) (hfuel : s.size - s.bytes < fuel) :
    ∃ piece s', nextPiece fuel s = .ok (piece, s') ∧ s'.IsSound ∧
      piece ++ s'.rest.map Prod.fst = s.rest.map Prod.fst ∧ (piece = [] → s.rest = []) := by
  induction fuel generalizing s with
  | zero => omega
  | succ fuel ih =>
    rw [nextPiece]
    by_cases hfound : pieceSize ≤ s.ready.length
    · refine ⟨_, { s with rest := s.rest.drop pieceSize }, if_pos hfound, ⟨h.error, h.bytes⟩,
        ?_, ?_⟩
      · rw [take_ready s _ hfound, List.map_drop, List.take_append_drop]
      · intro hnil
        rw [List.take_eq_nil_iff] at hnil
        rcases hnil with hnil | hnil
        · exact absurd hnil (by decide)
        · rw [hnil] at hfound
          exact absurd hfound (by decide)
    · obtain ⟨s', hread, hs', hrest, hsize, hmore⟩ :=
        exists_readBlock h (pieceSize - s.ready.length)
      rw [if_neg hfound, hread]
      simp only [bind, Except.bind]
      by_cases hend : s.bytes = s.size
      · exact ⟨s.rest.map Prod.fst, { s with rest := [] }, if_pos hend, ⟨h.error, h.bytes⟩,
          List.append_nil _, List.map_eq_nil_iff.1⟩
      · have hless := hmore hend
        have hle := hs'.bytes
        obtain ⟨piece, last, hpiece, hlast, hall, hnil⟩ := ih hs' (by omega)
        rw [hrest] at hall hnil
        exact ⟨piece, last, (if_neg hend).trans hpiece, hlast, hall, hnil⟩

/-- The pieces together are all that is left. -/
lemma exists_pieces (h : s.IsSound) (hfuel : s.rest.length < fuel) :
    ∃ found, s.pieces fuel = (found, none) ∧ found.flatten = s.rest.map Prod.fst := by
  induction fuel generalizing s with
  | zero => omega
  | succ fuel ih =>
    have hblocks : s.size - s.bytes < s.size + 2 := by omega
    obtain ⟨piece, s', hpiece, hs', hall, hnil⟩ := exists_nextPiece h hblocks
    rw [pieces, hpiece]
    cases piece with
    | nil => exact ⟨[], rfl, by rw [hnil rfl]; rfl⟩
    | cons c piece =>
      have hlength := congrArg List.length hall
      simp only [List.length_append, List.length_cons, List.length_map] at hlength
      obtain ⟨others, hothers, hflatten⟩ := ih hs' (by omega)
      refine ⟨(c :: piece) :: others, ?_, by rw [List.flatten_cons, hflatten, hall]⟩
      dsimp only
      rw [hothers]

end Supply

/-! ### Sources -/

namespace Source

lemma flatten_looks (pieces : List (List Char)) :
    (looks none pieces).flatten = pieces.flatten := by
  match pieces with
  | [] => rfl
  | [_] => rfl
  | first :: second :: others =>
    rw [looks, List.flatten_cons, List.flatten_cons, List.flatten_cons, List.append_assoc]

lemma ofPieces_of_allowed {pieces : List (List Char)}
    (h : ∀ c ∈ pieces.flatten, isAllowed c = true) :
    ofPieces pieces none = ⟨pieces.flatten, none⟩ := by
  have hgood : (looks none pieces).takeWhile (fun cs => cs.all isAllowed) = looks none pieces := by
    have hall : ∀ cs ∈ looks none pieces, cs.all isAllowed = true := by
      intro cs hcs
      rw [List.all_eq_true]
      intro c hc
      apply h
      rw [← flatten_looks]
      exact List.mem_flatten.2 ⟨cs, hcs, hc⟩
    exact List.takeWhile_eq_self_iff.2 hall
  simp only [ofPieces, hgood, if_true, flatten_looks, Option.map_none]

/-- **The source of a file has all characters of the text that the file holds.** -/
lemma ofBytes_toUtf8 {s : String}
    (h : ∀ c ∈ (shown s).toList, isAllowed c = true ∧ c ≠ '\r') :
    ofBytes (toUtf8 s) = ⟨(shown s).toList, none⟩ := by
  have hreturn : '\r' ∉ (shown s).toList := fun hmem => (h _ hmem).2 rfl
  have hdecodable : decodablePart (toUtf8 s) = shown s := by
    rw [decodablePart, decodeUtf8_toUtf8]
  have hlength : (known 0 (shown s).toList).length = (shown s).toList.length := by
    rw [← List.length_map Prod.fst, map_fst_known hreturn]
  have hpieces : (known 0 (shown s).toList).length < (shown s).toList.length + 1 :=
    Nat.lt_succ_of_le hlength.le
  obtain ⟨found, hfound, hflatten⟩ := Supply.exists_pieces
    (s := { rest := known 0 (shown s).toList, size := (toUtf8 s).size, error? := none })
    ⟨rfl, Nat.zero_le _⟩ hpieces
  rw [map_fst_known hreturn] at hflatten
  simp only [ofBytes, decodeUtf8_toUtf8, hdecodable, hfound]
  rw [ofPieces_of_allowed, hflatten]
  intro c hc
  rw [hflatten] at hc
  exact (h c hc).1

end Source

end Workflow.Yaml
