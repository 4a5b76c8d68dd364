/-
AccessRights/Proofs/FlagText.lean

Flag words are read back.

A flag word falls into its named bits, each written by its name, and the rest,
written as one numeral.  The pieces hold neither a blank nor the mark between
them, so splitting the text at the marks and trimming gives the pieces again;
each piece is read as the bits it was written for, and these bits together are
the word.

Main results: `held_or_nameless` (nothing of the word is lost),
`trim_splitAtMark_intercalate` (splitting undoes joining) and
`Legible.readFlagWord?_flagWordText`.
-/
import AccessRights.Proofs.Numerals
import AccessRights.Group
import AccessRights.Policy
import AccessRights.Rights
import Mathlib.Data.List.Nodup
import Mathlib.Data.List.TakeWhile

namespace AccessRights

variable {w : Nat}

/-! ### Legible tables -/

/-- A piece of a flag text: not empty, and without blanks and marks. -/
def CleanPiece (piece : List Char) : Prop :=
  piece ≠ [] ∧ ∀ c ∈ piece, isBlank c = false ∧ c ≠ '|'

/-- Decided along the piece, not over all characters. -/
instance : DecidablePred CleanPiece := fun piece =>
  decidable_of_iff (piece ≠ [] ∧ (piece.all fun c => !isBlank c && c != '|') = true)
    (by simp [CleanPiece])

/-- Every entry of the table names one bit, by a name that no other entry has and that cannot
be mistaken for a numeral. -/
structure Legible (table : List (NamedBit w)) : Prop where
  single : ∀ entry ∈ table, ∃ i : Fin w, entry.bit = BitVec.twoPow w i
  clean : ∀ entry ∈ table, CleanPiece entry.name.toList
  unlike : ∀ entry ∈ table, entry.name.toList.head? ≠ some '0'
  distinct : (table.map NamedBit.name).Nodup

theorem Rights.legible_table : Legible Rights.table :=
  ⟨by decide, by decide, by decide, by decide⟩

theorem PolicyFlags.legible_table : Legible PolicyFlags.table :=
  ⟨by decide, by decide, by decide, by decide⟩

theorem GroupFlags.legible_table : Legible GroupFlags.table :=
  ⟨by decide, by decide, by decide, by decide⟩

/-! ### The bits of a word -/

variable {table : List (NamedBit w)}

theorem getLsbD_foldl_or (words : List (BitVec w)) (start : BitVec w) (i : Nat) :
    (words.foldl (· ||| ·) start).getLsbD i =
      (start.getLsbD i || words.any fun word => word.getLsbD i) := by
  induction words generalizing start with
  | nil => rw [List.foldl_nil, List.any_nil, Bool.or_false]
  | cons word words ih =>
    rw [List.foldl_cons, ih, BitVec.getLsbD_or, List.any_cons, Bool.or_assoc]

theorem getLsbD_namelessBits (table : List (NamedBit w)) (word : BitVec w) (i : Nat) :
    (namelessBits table word).getLsbD i =
      (word.getLsbD i && !table.any fun entry => entry.bit.getLsbD i) := by
  unfold namelessBits
  induction table generalizing word with
  | nil => rw [List.foldl_nil, List.any_nil, Bool.not_false, Bool.and_true]
  | cons entry table ih =>
    rw [List.foldl_cons, ih, BitVec.getLsbD_and, BitVec.getLsbD_not, List.any_cons]
    cases hbit : word.getLsbD i with
    | false => rfl
    | true =>
      have hlt := BitVec.lt_of_getLsbD hbit
      simp [hlt]

theorem mem_heldBits {word : BitVec w} {entry : NamedBit w} :
    entry ∈ heldBits table word ↔ entry ∈ table ∧ word &&& entry.bit = entry.bit := by
  rw [heldBits, List.mem_filter, beq_iff_eq]

/-- The named bits and the nameless ones together are the word. -/
theorem held_or_nameless (hsingle : ∀ entry ∈ table, ∃ i : Fin w, entry.bit = BitVec.twoPow w i)
    (word : BitVec w) :
    ((heldBits table word).map NamedBit.bit).foldl (· ||| ·) 0 ||| namelessBits table word =
      word := by
  apply BitVec.eq_of_getLsbD_eq
  intro i hi
  rw [BitVec.getLsbD_or, getLsbD_foldl_or, getLsbD_namelessBits, BitVec.ofNat_eq_ofNat,
    BitVec.getLsbD_zero, Bool.false_or, Bool.eq_iff_iff, Bool.or_eq_true, Bool.and_eq_true,
    List.any_eq_true]
  constructor
  · rintro (⟨bit, hmem, hbit⟩ | ⟨hbit, -⟩)
    · obtain ⟨entry, hentry, rfl⟩ := List.mem_map.1 hmem
      rw [← (mem_heldBits.1 hentry).2, BitVec.getLsbD_and, Bool.and_eq_true] at hbit
      exact hbit.1
    · exact hbit
  · intro hword
    cases hnamed : table.any fun entry => entry.bit.getLsbD i with
    | false => exact .inr ⟨hword, rfl⟩
    | true =>
      -- the name stands for this bit alone, so it is held as a whole
      obtain ⟨entry, hentry, hbit⟩ := List.any_eq_true.1 hnamed
      obtain ⟨j, hj⟩ := hsingle entry hentry
      have hij : (i : Nat) = j := by
        simp only [hj, BitVec.getLsbD_twoPow, Bool.and_eq_true, decide_eq_true_eq] at hbit
        exact hbit.2.symm
      have hheld : word &&& entry.bit = entry.bit := by
        rw [hj, BitVec.and_twoPow, ← hij, if_pos hword]
      exact .inl ⟨entry.bit, List.mem_map_of_mem (mem_heldBits.2 ⟨hentry, hheld⟩), hbit⟩

/-! ### Splitting and trimming -/

theorem splitAtMark_append {mark : Char} {piece : List Char} (h : mark ∉ piece)
    (rest : List Char) :
    splitAtMark mark (piece ++ mark :: rest) = piece :: splitAtMark mark rest := by
  induction piece with
  | nil => exact if_pos rfl
  | cons c piece ih =>
    obtain ⟨hc, hpiece⟩ := not_or.1 (mt List.mem_cons.2 h)
    rw [List.cons_append, splitAtMark, if_neg (Ne.symm hc), ih hpiece]

theorem splitAtMark_of_not_mem {mark : Char} {piece : List Char} (h : mark ∉ piece) :
    splitAtMark mark piece = [piece] := by
  induction piece with
  | nil => rfl
  | cons c piece ih =>
    obtain ⟨hc, hpiece⟩ := not_or.1 (mt List.mem_cons.2 h)
    rw [splitAtMark, if_neg (Ne.symm hc), ih hpiece]

theorem trimStart_append {lead : List Char} (hlead : ∀ c ∈ lead, isBlank c = true)
    (text : List Char) : trimStart (lead ++ text) = trimStart text :=
  List.dropWhile_append_of_pos hlead

/-- Blanks around a clean piece are trimmed, and nothing else is. -/
theorem CleanPiece.trim_padded {piece : List Char} (h : CleanPiece piece) {lead trail : List Char}
    (hlead : ∀ c ∈ lead, isBlank c = true) (htrail : ∀ c ∈ trail, isBlank c = true) :
    trim (lead ++ piece ++ trail) = piece := by
  have hfirst (text : List Char) : trimStart (piece ++ text) = piece ++ text := by
    refine trimStart_eq_self fun c hc => ?_
    rw [List.head?_append_of_ne_nil _ h.1] at hc
    exact (h.2 c (List.mem_of_mem_head? hc)).1
  have hlast : trimStart piece.reverse = piece.reverse :=
    trimStart_eq_self fun c hc => (h.2 c (List.mem_reverse.1 (List.mem_of_mem_head? hc))).1
  rw [trim, List.append_assoc, trimStart_append hlead, hfirst, List.reverse_append,
    trimStart_append (by simpa using htrail), hlast, List.reverse_reverse]

theorem trim_ne_nil {c : Char} (hc : isBlank c = false) (rest : List Char) :
    trim (c :: rest) ≠ [] := by
  intro h
  rw [trim, trimStart_cons_of_not_blank rest hc, List.reverse_eq_nil_iff] at h
  have hblank := List.dropWhile_eq_nil_iff.1 h c (List.mem_reverse.2 List.mem_cons_self)
  rw [hc] at hblank
  cases hblank

/-- Splitting at the marks and trimming undoes the joining of clean pieces. -/
theorem trim_splitAtMark_intercalate {pieces : List (List Char)} (hne : pieces ≠ [])
    (hclean : ∀ piece ∈ pieces, CleanPiece piece) {lead : List Char} (hlead : ∀ c ∈ lead, c = ' ') :
    (splitAtMark '|' (lead ++ [' ', '|', ' '].intercalate pieces)).map trim = pieces := by
  have hblank (text : List Char) (h : ∀ c ∈ text, c = ' ') : ∀ c ∈ text, isBlank c = true :=
    fun c hc => h c hc ▸ rfl
  induction pieces generalizing lead with
  | nil => exact absurd rfl hne
  | cons piece pieces ih =>
    have hpiece := hclean piece List.mem_cons_self
    -- neither the piece nor the blanks around it have a mark, so the first mark is the next one
    have hmark (trail : List Char) (htrail : ∀ c ∈ trail, c = ' ') :
        '|' ∉ lead ++ piece ++ trail := by
      intro hmem
      rw [List.mem_append, List.mem_append] at hmem
      obtain (hmem | hmem) | hmem := hmem
      · exact absurd (hlead _ hmem) (by decide)
      · exact (hpiece.2 _ hmem).2 rfl
      · exact absurd (htrail _ hmem) (by decide)
    cases pieces with
    | nil =>
      have htrim := hpiece.trim_padded (hblank lead hlead) (hblank [] (by simp))
      have hsplit := hmark [] (by simp)
      rw [List.append_nil] at htrim hsplit
      rw [List.intercalate_singleton, splitAtMark_of_not_mem hsplit, List.map_singleton, htrim]
    | cons next pieces =>
      have htext : lead ++ [' ', '|', ' '].intercalate (piece :: next :: pieces) =
          (lead ++ piece ++ [' ']) ++ '|' ::
            ([' '] ++ [' ', '|', ' '].intercalate (next :: pieces)) := by
        rw [List.intercalate_cons_of_ne_nil (by simp)]
        simp
      rw [htext, splitAtMark_append (hmark [' '] (by simp)), List.map_cons,
        hpiece.trim_padded (hblank lead hlead) (hblank [' '] (by simp)),
        ih (by simp) (fun other hother => hclean other (List.mem_cons_of_mem _ hother)) (by simp)]

/-! ### Pieces -/

/-- A name is read as the bit it stands for. -/
theorem Legible.readFlagPiece?_name (h : Legible table) {entry : NamedBit w}
    (hentry : entry ∈ table) : readFlagPiece? table entry.name.toList = some entry.bit := by
  have hfind : (table.find? fun other => other.name.toList == entry.name.toList) = some entry := by
    cases hfind : table.find? fun other => other.name.toList == entry.name.toList with
    | none => simpa using List.find?_eq_none.1 hfind entry hentry
    | some other =>
      have hname : other.name = entry.name := by
        simpa [String.toList_inj] using List.find?_some hfind
      rw [List.inj_on_of_nodup_map h.distinct (List.mem_of_find?_eq_some hfind) hentry hname]
  rw [readFlagPiece?, hfind, Option.map_some]
  intro digits hname
  exact h.unlike entry hentry (by rw [hname]; rfl)

/-- A hexadecimal digit is neither a blank nor a mark nor a sign. -/
theorem hexDigit_clean {d : Nat} (h : d < 16) :
    isBlank d.digitChar = false ∧ d.digitChar ≠ '|' ∧ d.digitChar ≠ '+' := by
  decide +revert

/-- The numeral of a word is read as the word. -/
theorem readFlagPiece?_hexadecimal (table : List (NamedBit w)) (word : BitVec w) :
    readFlagPiece? table ('0' :: 'x' :: hexadecimal word.toNat) = some word := by
  have hplus (digits : List Char) : hexadecimal word.toNat ≠ '+' :: digits := by
    intro heq
    obtain ⟨d, hd, hdigit⟩ :=
      exists_digit_of_mem_hexadecimal (heq ▸ List.mem_cons_self : '+' ∈ hexadecimal word.toNat)
    exact (hexDigit_clean hd).2.2 hdigit.symm
  have hvalue : hexValue? (hexadecimal word.toNat) = some word.toNat := hexValue?_padded 0 _
  have hread : readHexWord? w (hexadecimal word.toNat) = some word := by
    unfold readHexWord?
    split
    · rename_i digits heq
      exact absurd heq (hplus digits)
    · simp [hvalue]
  rw [readFlagPiece?, hread]

/-- Every written piece is clean. -/
theorem Legible.cleanPiece (h : Legible table) {word : BitVec w} {piece : List Char}
    (hpiece : piece ∈ flagPieces table word) : CleanPiece piece := by
  have hname (hmem : piece ∈ (heldBits table word).map fun entry => entry.name.toList) :
      CleanPiece piece := by
    obtain ⟨entry, hentry, rfl⟩ := List.mem_map.1 hmem
    exact h.clean entry (mem_heldBits.1 hentry).1
  unfold flagPieces at hpiece
  dsimp only at hpiece
  split at hpiece
  · exact hname hpiece
  · obtain hpiece | hpiece := List.mem_append.1 hpiece
    · exact hname hpiece
    · rw [List.mem_singleton.1 hpiece]
      refine ⟨by simp, fun c hc => ?_⟩
      rw [List.mem_cons, List.mem_cons] at hc
      obtain rfl | rfl | hc := hc
      · decide
      · decide
      · obtain ⟨d, hd, rfl⟩ := exists_digit_of_mem_hexadecimal hc
        exact (hexDigit_clean hd).imp_right And.left

/-- The pieces are read as the named bits and, if there are any, the nameless ones. -/
theorem Legible.mapM_flagPieces (h : Legible table) (word : BitVec w) :
    ∃ words, (flagPieces table word).mapM (readFlagPiece? table) = some words ∧
      words.foldl (· ||| ·) 0 = word := by
  have hheld : ((heldBits table word).map fun entry => entry.name.toList).mapM
      (readFlagPiece? table) = some ((heldBits table word).map NamedBit.bit) :=
    mapM_map_eq_some fun _ hentry => h.readFlagPiece?_name (mem_heldBits.1 hentry).1
  have hword := held_or_nameless h.single word
  unfold flagPieces
  dsimp only
  split
  · rename_i hleft
    rw [hleft, BitVec.ofNat_eq_ofNat, BitVec.or_zero] at hword
    exact ⟨_, hheld, hword⟩
  · refine ⟨(heldBits table word).map NamedBit.bit ++ [namelessBits table word], ?_, ?_⟩
    · rw [List.mapM_append, hheld, List.mapM_cons, readFlagPiece?_hexadecimal]
      rfl
    · rw [List.foldl_append]
      exact hword

/-! ### Words -/

/-- The text of a flag word is read as that word. -/
theorem Legible.readFlagWord?_flagWordText (h : Legible table) (word : BitVec w) :
    readFlagWord? table (flagWordText table word) = some word := by
  obtain ⟨words, hwords, hword⟩ := h.mapM_flagPieces word
  unfold flagWordText
  cases hpieces : flagPieces table word with
  | nil =>
    -- no bits at all are written as nothing
    rw [hpieces] at hwords
    cases hwords
    rw [← hword]
    rfl
  | cons piece pieces =>
    have hclean (other : List Char) (hother : other ∈ piece :: pieces) : CleanPiece other :=
      h.cleanPiece (hpieces ▸ hother)
    have hsplit : (splitAtMark '|' ([' ', '|', ' '].intercalate (piece :: pieces))).map trim =
        piece :: pieces :=
      trim_splitAtMark_intercalate (List.cons_ne_nil _ _) hclean (List.forall_mem_nil _)
    have htrim : trim ([' ', '|', ' '].intercalate (piece :: pieces)) ≠ [] := by
      obtain ⟨hne, hblank⟩ := hclean piece List.mem_cons_self
      obtain ⟨c, rest, rfl⟩ := List.exists_cons_of_ne_nil hne
      rw [List.intercalate_cons_cons_left]
      exact trim_ne_nil (hblank c List.mem_cons_self).1 _
    rw [hpieces, ← hsplit, List.mapM_map] at hwords
    rw [readFlagWord?, if_neg (by simpa using htrim)]
    show (List.mapM (readFlagPiece? table ∘ trim) _).bind _ = _
    rw [hwords, Option.bind_some, hword]

/-- Bits without a name are written as one numeral. -/
example : flagWordText PolicyFlags.table 13#8 = "INHERIT | 0xc".toList := by
  decide

end AccessRights
