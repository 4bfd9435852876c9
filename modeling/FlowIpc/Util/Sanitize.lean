import FlowIpc.Lib.Collapse
import Mathlib.Tactic.SplitIfs
import Mathlib.Tactic.Tauto

/-!
# Sanitizing a shared name

`Shared_name::sanitize()` is to bring a name into the form that `sanitized()` checks: letters, digits and
single underscores, at most 75 of them. It takes `/` for `_`, and makes one of several separators; where the
result would still not be such a name, it leaves the name as it was. It does so in one scan, in place: what is
written is never ahead of what is read, and a copy of the name is made before its first change, if any, and
only if the scan may still fail after it.

* `normalized` says what the name would become.
* `sanitize_meets`: that is what it becomes, if that is sanitized; and it stays as it is otherwise.

Characters are bytes, and `isalnum()` is that of the C locale.

Source: `shared_name.hpp`, `shared_name.cpp` `Shared_name`.
-/

namespace FlowIpc.Util

open Lib

/-! ## The name and its characters -/

/-- Source: `Shared_name::S_MAX_LENGTH` -/
def sMaxLength : Nat := 75

/-- `'_'`
Source: `Shared_name::S_SEPARATOR` -/
def sSeparator : UInt8 := 95

/-- `'/'`
Source: `Shared_name::sanitize` -/
def separatorAlt : UInt8 := 47

/-- `std::isalnum()`: one of `[0-9A-Za-z]`. -/
def isalnum (ch : UInt8) : Bool :=
  (48 ≤ ch && ch ≤ 57) || (65 ≤ ch && ch ≤ 90) || (97 ≤ ch && ch ≤ 122)

/-- The loop of `sanitized()`. -/
def sanitizedLoop : (prevIsSep : Bool) → List UInt8 → Bool
  | _, [] => true
  | prevIsSep, ch :: rest =>
    let isSep := ch == sSeparator
    if !isSep && !isalnum ch then false
    else if isSep then
      if prevIsSep then false else sanitizedLoop true rest
    else sanitizedLoop false rest

/-- Source: `Shared_name::sanitized` -/
def sanitized (rawName : List UInt8) : Bool :=
  if sMaxLength < rawName.length then false else sanitizedLoop false rawName

/-! ## The scan -/

/-- `sanitize()` between two characters. -/
structure Scan where
  /-- `m_raw_name` -/
  rawName : List UInt8
  /-- `orig_backup_or_empty_if_unchanged` -/
  origBackupOrEmptyIfUnchanged : List UInt8
  /-- `in_pos` -/
  inPos : Nat
  /-- `out_pos` -/
  outPos : Nat

/-- Source: `Shared_name::sanitize`, `undo_changes_pre_return_false_func` -/
def Scan.undo (s : Scan) : List UInt8 :=
  if s.origBackupOrEmptyIfUnchanged ≠ [] then s.origBackupOrEmptyIfUnchanged else s.rawName

/-- `ch` is one of the `SEPS`. -/
def isSep (ch : UInt8) : Bool := ch == sSeparator || ch == separatorAlt

/-- `m_raw_name.find_first_not_of(SEPS, pos)` -/
def findFirstNotOfSeps (rawName : List UInt8) (pos : Nat) : Option Nat :=
  ((rawName.drop pos).findIdx? (!isSep ·)).map (pos + ·)

/-- After a separator, past the separators that are adjacent: `in_pos` and `is_last`, or none if an assertion
fails.
Source: `Shared_name::sanitize` -/
def skipSeps (rawName : List UInt8) (n inPos : Nat) (isLast : Bool) : Option (Nat × Bool) :=
  if isLast then some (inPos, isLast)
  else
    match findFirstNotOfSeps rawName (inPos + 1) with
    | none => some (n - 1, true)
    | some inPos =>
      let inPos := inPos - 1
      if inPos ≠ n - 1 ∧ !isLast then some (inPos, isLast) else none

/-- Writes a character out, if that is a change.
Source: `Shared_name::sanitize` -/
def Scan.write (s : Scan) (ch : UInt8) (isLast : Bool) : Option Scan :=
  match s.rawName[s.outPos]? with
  | none => none
  | some old =>
    if old ≠ ch then
      some { s with
        origBackupOrEmptyIfUnchanged :=
          if s.origBackupOrEmptyIfUnchanged = [] ∧ !isLast then s.rawName
          else s.origBackupOrEmptyIfUnchanged
        rawName := s.rawName.set s.outPos ch }
    else some s

/-- The body of the loop: `false` is returned, with this name; or it goes on.
Source: `Shared_name::sanitize` -/
def Scan.step (n : Nat) (s : Scan) : Option (Except (List UInt8) Scan) :=
  if sMaxLength ≤ s.outPos then some (.error s.undo)
  else
    match s.rawName[s.inPos]? with
    | none => none
    | some ch =>
      let isLast := s.inPos == n - 1
      if !isSep ch && !isalnum ch then some (.error s.undo)
      else if isSep ch then
        match skipSeps s.rawName n s.inPos isLast with
        | none => none
        | some (inPos, isLast) => ({ s with inPos := inPos }.write sSeparator isLast).map .ok
      else (s.write ch isLast).map .ok

/-- The loop, for that many iterations at most: what is returned, and the name. There is no result if an
assertion fails, or a position is out of range, or there are more iterations.
Source: `Shared_name::sanitize` -/
def scan (n : Nat) : (fuel : Nat) → Scan → Option (Bool × List UInt8)
  | 0, _ => none
  | fuel + 1, s =>
    if s.inPos = n then some (true, s.rawName.take s.outPos)
    else
      match s.step n with
      | none => none
      | some (.error rawName) => some (false, rawName)
      | some (.ok s) => scan n fuel { s with inPos := s.inPos + 1, outPos := s.outPos + 1 }

/-- What is returned, and the name.
Source: `Shared_name::sanitize` -/
def sanitize (rawName : List UInt8) : Option (Bool × List UInt8) :=
  if rawName = [] then some (true, rawName)
  else scan rawName.length (rawName.length + 1) ⟨rawName, [], 0, 0⟩

/-! ## What it is for -/

/-- Every `/` is replaced by `_`, and then every run of two or more `_` collapsed to one. -/
def normalized (rawName : List UInt8) : List UInt8 :=
  collapse sSeparator (rawName.map fun ch => if ch = separatorAlt then sSeparator else ch)

/-- Alphanumerics and `_`, and not too long. -/
def Fit (rawName : List UInt8) : Prop :=
  (∀ ch ∈ rawName, isalnum ch ∨ ch = sSeparator) ∧ rawName.length ≤ sMaxLength

instance (rawName : List UInt8) : Decidable (Fit rawName) :=
  inferInstanceAs (Decidable (_ ∧ _))

/-! ### One character and what it skips -/

/-- What is left to read after `ch`, if `rest` is left after it. -/
def afterSkip (ch : UInt8) (rest : List UInt8) : List UInt8 :=
  if isSep ch then rest.dropWhile isSep else rest

/-- What is skipped. -/
def skipped (ch : UInt8) (rest : List UInt8) : List UInt8 :=
  if isSep ch then rest.takeWhile isSep else []

/-- What is written for `ch`. -/
def written (ch : UInt8) : UInt8 := if isSep ch then sSeparator else ch

/-- What is skipped and what is left are all there was. -/
theorem skipped_append_afterSkip (ch : UInt8) (rest : List UInt8) :
    skipped ch rest ++ afterSkip ch rest = rest := by
  unfold skipped afterSkip
  split_ifs
  · exact List.takeWhile_append_dropWhile
  · rfl

/-- There is no more left than there was. -/
theorem length_afterSkip_le (ch : UInt8) (rest : List UInt8) : (afterSkip ch rest).length ≤ rest.length := by
  unfold afterSkip
  split_ifs
  · exact (List.dropWhile_suffix isSep).length_le
  · exact Nat.le_refl _

/-- A separator is one of two characters. -/
theorem isSep_iff {ch : UInt8} : isSep ch ↔ ch = sSeparator ∨ ch = separatorAlt := by
  simp [isSep]

/-- A character is normalized on its own, and a separator with those that follow. -/
theorem normalized_cons (ch : UInt8) (rest : List UInt8) :
    normalized (ch :: rest) = written ch :: normalized (afterSkip ch rest) := by
  unfold normalized
  rw [List.map_cons]
  have heq : (if ch = separatorAlt then sSeparator else ch) = written ch := by
    by_cases halt : ch = separatorAlt
    · simp [written, isSep_iff, halt]
    · by_cases hsep : ch = sSeparator <;> simp [written, isSep_iff, halt, hsep]
  rw [heq]
  by_cases hsep : isSep ch
  · rw [written, if_pos hsep, afterSkip, if_pos hsep, collapse_cons_self, List.dropWhile_map]
    congr 4
    funext c
    by_cases halt : c = separatorAlt
    · simp [isSep, halt]
    · by_cases hc : c = sSeparator <;> simp [isSep, halt, hc]
  · rw [written, if_neg hsep, afterSkip, if_neg hsep]
    exact collapse_cons_of_ne (fun h => hsep (isSep_iff.2 (.inl h))) _

/-- The first element of another kind comes after those of this kind. -/
theorem findIdx?_not {α : Type*} (p : α → Bool) (l : List α) :
    l.findIdx? (!p ·) = if l.dropWhile p = [] then none else some (l.takeWhile p).length := by
  induction l with
  | nil => rfl
  | cons a l ih =>
    rw [List.findIdx?_cons, ih]
    by_cases ha : p a
    · rw [List.dropWhile_cons_of_pos ha, List.takeWhile_cons_of_pos ha]
      by_cases hl : l.dropWhile p = [] <;> simp [ha, hl]
    · rw [List.dropWhile_cons_of_neg ha, List.takeWhile_cons_of_neg ha]
      simp [ha]

/-- After a separator the scan goes on before what is not skipped. -/
theorem skipSeps_eq (before : List UInt8) (ch : UInt8) (rest : List UInt8) :
    skipSeps (before ++ ch :: rest) (before ++ ch :: rest).length before.length
        (before.length == (before ++ ch :: rest).length - 1) =
      some (before.length + (rest.takeWhile isSep).length, (rest.dropWhile isSep).isEmpty) := by
  have hfind : findFirstNotOfSeps (before ++ ch :: rest) (before.length + 1) =
      if rest.dropWhile isSep = [] then none
      else some (before.length + 1 + (rest.takeWhile isSep).length) := by
    have hdrop : (before ++ ch :: rest).drop (before.length + 1) = rest := by simp
    rw [findFirstNotOfSeps, hdrop, findIdx?_not]
    split_ifs <;> rfl
  have hparts : (rest.takeWhile isSep).length + (rest.dropWhile isSep).length = rest.length := by
    rw [← List.length_append, List.takeWhile_append_dropWhile]
  have hlength : (before ++ ch :: rest).length - 1 = before.length + rest.length := by simp
  rw [skipSeps, hfind, hlength]
  by_cases hnil : rest = []
  · subst hnil
    simp
  · have hlast : (before.length == before.length + rest.length) = false := by
      have := List.length_pos_of_ne_nil hnil
      simp only [beq_eq_false_iff_ne]
      omega
    rw [hlast, if_neg Bool.false_ne_true]
    by_cases hafter : rest.dropWhile isSep = []
    · rw [hafter] at hparts ⊢
      simp only [↓reduceIte, Option.some.injEq, Prod.mk.injEq, List.isEmpty_nil, and_true]
      simp only [List.length_nil] at hparts
      omega
    · have hpos := List.length_pos_of_ne_nil hafter
      have hpos' : before.length + 1 + (rest.takeWhile isSep).length - 1 =
          before.length + (rest.takeWhile isSep).length := by omega
      have hne : (rest.takeWhile isSep).length ≠ rest.length := by omega
      simp [hafter, hpos', hne]

/-! ### The scan -/

/-- What is written is the name with this character there, and if there may be more, what the name was can be
restored still. -/
theorem Scan.write_spec {s : Scan} {out mid : List UInt8} {old : UInt8} (hraw : s.rawName = out ++ old :: mid)
    (hout : s.outPos = out.length) (ch : UInt8) (isLast : Bool) :
    ∃ s', s.write ch isLast = some s' ∧ s'.rawName = out ++ ch :: mid ∧ s'.inPos = s.inPos ∧
      s'.outPos = s.outPos ∧ (isLast = false → s'.undo = s.undo) := by
  have hold : s.rawName[s.outPos]? = some old := by
    rw [hraw, hout]
    simp
  unfold Scan.write
  rw [hold]
  by_cases heq : old = ch
  · subst heq
    exact ⟨s, if_neg (fun h => h rfl), hraw, rfl, rfl, fun _ => rfl⟩
  · refine ⟨_, if_pos heq, ?_, rfl, rfl, fun hlast => ?_⟩
    · dsimp only
      rw [hraw, hout]
      simp
    · by_cases hbackup : s.origBackupOrEmptyIfUnchanged = []
      · have hne : s.rawName ≠ [] := by simp [hraw]
        simp [Scan.undo, hbackup, hlast, hne]
      · simp [Scan.undo, hbackup]

/-- Where the scan is: `out` has been written, `gap` is what is between, and `rest` is to be read. As long as
there is something to be read, the name can be restored. -/
structure Scanning (orig : List UInt8) (n : Nat) (s : Scan) (out gap rest : List UInt8) : Prop where
  rawName : s.rawName = out ++ gap ++ rest
  outPos : s.outPos = out.length
  inPos : s.inPos = out.length + gap.length
  length : n = out.length + gap.length + rest.length
  short : out.length ≤ sMaxLength
  undo : rest ≠ [] → s.undo = orig

variable {orig : List UInt8} {n : Nat} {s : Scan} {out gap rest : List UInt8} {ch : UInt8}

/-- The scan reads `ch`. -/
theorem Scanning.reads (h : Scanning orig n s out gap (ch :: rest)) : s.rawName[s.inPos]? = some ch := by
  have hlength : s.inPos = (out ++ gap).length := by rw [h.inPos, List.length_append]
  rw [h.rawName, hlength]
  simp

/-- Where the scan skips to. -/
theorem Scanning.skips (h : Scanning orig n s out gap (ch :: rest)) (hsep : isSep ch) :
    skipSeps s.rawName n s.inPos (s.inPos == n - 1) =
      some (s.inPos + (skipped ch rest).length, (afterSkip ch rest).isEmpty) := by
  have hskip := skipSeps_eq (out ++ gap) ch rest
  have hlength : (out ++ gap).length = s.inPos := by rw [h.inPos, List.length_append]
  have hn : (out ++ gap ++ ch :: rest).length = n := by
    rw [h.length]
    simp only [List.length_append]
  rw [hlength, hn, ← h.rawName] at hskip
  rw [hskip, skipped, if_pos hsep, afterSkip, if_pos hsep]

/-- One character: it is written, and what is to be skipped is. -/
theorem Scanning.step (h : Scanning orig n s out gap (ch :: rest)) (hroom : out.length < sMaxLength)
    (hlegal : isSep ch ∨ isalnum ch) :
    ∃ s' gap', s.step n = some (.ok s') ∧
      Scanning orig n { s' with inPos := s'.inPos + 1, outPos := s'.outPos + 1 } (out ++ [written ch]) gap'
        (afterSkip ch rest) := by
  obtain ⟨old, mid, hmid⟩ := List.exists_cons_of_ne_nil (l := gap ++ ch :: skipped ch rest) (by simp)
  have hgap : gap.length + (skipped ch rest).length = mid.length := by
    have hlength := congrArg List.length hmid
    simp only [List.length_append, List.length_cons] at hlength
    omega
  have hrest : (skipped ch rest).length + (afterSkip ch rest).length = rest.length := by
    rw [← List.length_append, skipped_append_afterSkip]
  have hraw : s.rawName = out ++ old :: (mid ++ afterSkip ch rest) := by
    rw [h.rawName, ← List.cons_append, ← hmid]
    simp [skipped_append_afterSkip]
  have hn := h.length
  rw [List.length_cons] at hn
  -- What is written, and where the scan goes on, whether `ch` is a separator or not.
  have hwrites : ∃ s', s.step n = some (.ok s') ∧ s'.rawName = out ++ written ch :: (mid ++ afterSkip ch rest) ∧
      s'.inPos = s.inPos + (skipped ch rest).length ∧ s'.outPos = s.outPos ∧
      (afterSkip ch rest ≠ [] → s'.undo = s.undo) := by
    unfold Scan.step
    rw [if_neg (by rw [h.outPos]; omega), h.reads]
    by_cases hsep : isSep ch
    · obtain ⟨s', hwrite, hraw', hin, hout, hundo⟩ :=
        Scan.write_spec (s := { s with inPos := s.inPos + (skipped ch rest).length }) hraw h.outPos sSeparator
          ((afterSkip ch rest).isEmpty)
      refine ⟨s', ?_, ?_, hin, hout, fun hafter => hundo (by simpa using hafter)⟩
      · simp [hsep, h.skips hsep, hwrite]
      · rw [hraw', written, if_pos hsep]
    · have halnum : isalnum ch := hlegal.resolve_left hsep
      obtain ⟨s', hwrite, hraw', hin, hout, hundo⟩ := Scan.write_spec hraw h.outPos ch (s.inPos == n - 1)
      refine ⟨s', ?_, ?_, ?_, hout, fun hafter => hundo ?_⟩
      · simp [hsep, halnum, hwrite]
      · rw [hraw', written, if_neg hsep]
      · rw [hin, skipped, if_neg hsep]
        rfl
      · have hpos := List.length_pos_of_ne_nil hafter
        have hin' := h.inPos
        simp only [beq_eq_false_iff_ne]
        omega
  obtain ⟨s', hstep, hraw', hin, hout, hundo⟩ := hwrites
  refine ⟨s', mid, hstep, ⟨?_, ?_, ?_, ?_, ?_, fun hafter => ?_⟩⟩
  · simp [hraw']
  · simp [hout, h.outPos]
  · simp only [hin, h.inPos, List.length_append, List.length_singleton]
    omega
  · simp only [List.length_append, List.length_singleton]
    omega
  · simp only [List.length_append, List.length_singleton]
    omega
  · exact (hundo hafter).trans (h.undo (List.cons_ne_nil _ _))

/-- Whether what is still to be written fits after `out`. -/
def FitAfter (out rest : List UInt8) : Prop :=
  (∀ c ∈ normalized rest, isalnum c ∨ c = sSeparator) ∧ out.length + (normalized rest).length ≤ sMaxLength

instance (out rest : List UInt8) : Decidable (FitAfter out rest) :=
  inferInstanceAs (Decidable (_ ∧ _))

/-- A name fits if there is room, its first character may stand there, and the rest fits. -/
theorem fitAfter_cons : FitAfter out (ch :: rest) ↔
    out.length < sMaxLength ∧ (isSep ch ∨ isalnum ch) ∧ FitAfter (out ++ [written ch]) (afterSkip ch rest) := by
  have hwritten : (isalnum (written ch) ∨ written ch = sSeparator) ↔ (isSep ch ∨ isalnum ch) := by
    unfold written
    split_ifs with hsep
    · simp [hsep]
    · have hne : ch ≠ sSeparator := fun h => hsep (isSep_iff.2 (.inl h))
      simp [hsep, hne]
  unfold FitAfter
  rw [normalized_cons, List.forall_mem_cons, hwritten]
  simp only [List.length_cons, List.length_append, List.length_nil]
  constructor
  · rintro ⟨⟨hch, hrest⟩, hlen⟩
    exact ⟨by omega, hch, hrest, by omega⟩
  · rintro ⟨-, hch, hrest, hlen⟩
    exact ⟨⟨hch, hrest⟩, by omega⟩

/-- The scan: it writes what the rest becomes, if that fits; and the name is as it was if not. The induction is
on the iterations. -/
theorem Scanning.scan {fuel : Nat} (h : Scanning orig n s out gap rest) (hfuel : rest.length < fuel) :
    scan n fuel s =
      some (if FitAfter out rest then (true, out ++ normalized rest) else (false, orig)) := by
  induction fuel generalizing s out gap rest with
  | zero => omega
  | succ fuel ih =>
    cases rest with
    | nil =>
      have hlast : s.inPos = n := by rw [h.inPos, h.length]; rfl
      have hfit : FitAfter out [] := ⟨by simp [normalized], by simpa [normalized] using h.short⟩
      rw [Util.scan, if_pos hlast, if_pos hfit, h.rawName, h.outPos, List.append_nil, List.take_left' rfl]
      simp [normalized]
    | cons ch rest =>
      have hmore : s.inPos ≠ n := by
        rw [h.inPos, h.length, List.length_cons]
        omega
      rw [Util.scan, if_neg hmore]
      by_cases hroom : out.length < sMaxLength
      · by_cases hlegal : isSep ch ∨ isalnum ch
        · obtain ⟨s', gap', hstep, hscan⟩ := h.step hroom hlegal
          have hle := length_afterSkip_le ch rest
          rw [List.length_cons] at hfuel
          rw [hstep]
          dsimp only
          rw [ih hscan (by omega), normalized_cons, List.append_assoc, List.singleton_append]
          have hiff : FitAfter out (ch :: rest) ↔ FitAfter (out ++ [written ch]) (afterSkip ch rest) := by
            rw [fitAfter_cons]
            exact ⟨fun hfit => hfit.2.2, fun hfit => ⟨hroom, hlegal, hfit⟩⟩
          by_cases hfit : FitAfter out (ch :: rest)
          · rw [if_pos hfit, if_pos (hiff.1 hfit)]
          · rw [if_neg hfit, if_neg (fun hfit' => hfit (hiff.2 hfit'))]
        · have hstep : s.step n = some (.error orig) := by
            rw [not_or] at hlegal
            rw [Scan.step, if_neg (by rw [h.outPos]; omega), h.reads]
            simp [hlegal.1, hlegal.2, h.undo (List.cons_ne_nil _ _)]
          rw [hstep, if_neg fun hfit => hlegal (fitAfter_cons.1 hfit).2.1]
      · have hstep : s.step n = some (.error orig) := by
          rw [Scan.step, if_pos (by rw [h.outPos]; omega), h.undo (List.cons_ne_nil _ _)]
        rw [hstep, if_neg fun hfit => hroom (fitAfter_cons.1 hfit).1]

/-- What `sanitize()` comes to. -/
theorem sanitize_eq (rawName : List UInt8) : sanitize rawName =
    some (if Fit (normalized rawName) then (true, normalized rawName) else (false, rawName)) := by
  unfold sanitize
  by_cases hnil : rawName = []
  · subst hnil
    have hfit : Fit (normalized []) := ⟨fun ch hmem => (List.not_mem_nil hmem).elim, Nat.zero_le _⟩
    rw [if_pos rfl, if_pos hfit]
    rfl
  · rw [if_neg hnil]
    have hstart : Scanning rawName rawName.length ⟨rawName, [], 0, 0⟩ [] [] rawName :=
      ⟨rfl, rfl, rfl, by simp, Nat.zero_le _, fun _ => rfl⟩
    have hiff : FitAfter [] rawName ↔ Fit (normalized rawName) := by
      simp [FitAfter, Fit]
    rw [hstart.scan (Nat.lt_succ_self _)]
    by_cases hfit : Fit (normalized rawName)
    · rw [if_pos hfit, if_pos (hiff.2 hfit)]
      rfl
    · rw [if_neg hfit, if_neg (fun hfit' => hfit (hiff.1 hfit'))]

/-! ### What is sanitized -/

/-- The loop of `sanitized()` looks for what is illegal, and for a separator after another. -/
theorem sanitizedLoop_iff (rest : List UInt8) : ∀ prevIsSep : Bool, sanitizedLoop prevIsSep rest ↔
    (∀ ch ∈ rest, isalnum ch ∨ ch = sSeparator) ∧ rest.IsChain (Apart sSeparator) ∧
      (prevIsSep → rest.head? ≠ some sSeparator) := by
  induction rest with
  | nil => intro prevIsSep; simp [sanitizedLoop]
  | cons ch rest ih =>
    intro prevIsSep
    have hchain : (ch :: rest).IsChain (Apart sSeparator) ↔
        rest.IsChain (Apart sSeparator) ∧ (ch = sSeparator → rest.head? ≠ some sSeparator) := by
      cases rest with
      | nil => simp
      | cons b rest =>
        simp only [List.isChain_cons_cons, Apart, List.head?_cons, ne_eq, Option.some.injEq]
        tauto
    rw [hchain, List.forall_mem_cons]
    by_cases hsep : ch = sSeparator
    · subst hsep
      cases prevIsSep <;> simp [sanitizedLoop, ih]
    · by_cases halnum : isalnum ch <;> simp [sanitizedLoop, hsep, halnum, ih]

/-- A name is sanitized if it fits and no two separators are side by side. -/
theorem sanitized_iff (rawName : List UInt8) :
    sanitized rawName ↔ Fit rawName ∧ rawName.IsChain (Apart sSeparator) := by
  have hloop := sanitizedLoop_iff rawName false
  unfold sanitized Fit
  by_cases hlong : sMaxLength < rawName.length
  · rw [if_pos hlong]
    constructor
    · intro h
      cases h
    · rintro ⟨⟨-, hshort⟩, -⟩
      omega
  · rw [if_neg hlong, hloop]
    constructor
    · rintro ⟨hlegal, hchain, -⟩
      exact ⟨⟨hlegal, by omega⟩, hchain⟩
    · rintro ⟨⟨hlegal, -⟩, hchain⟩
      exact ⟨hlegal, hchain, fun h => by cases h⟩

/-- A sanitized name is normalized already: it has no `/`, and no run of `_`. -/
theorem normalized_of_sanitized {rawName : List UInt8} (h : sanitized rawName) :
    normalized rawName = rawName := by
  obtain ⟨⟨hlegal, -⟩, hchain⟩ := (sanitized_iff rawName).1 h
  have hmap : rawName.map (fun ch => if ch = separatorAlt then sSeparator else ch) = rawName := by
    refine (List.map_congr_left fun ch hch => ?_).trans rawName.map_id
    have hne : ch ≠ separatorAlt := by
      rintro rfl
      exact absurd (hlegal _ hch) (by decide)
    exact if_neg hne
  rw [normalized, hmap, collapse_of_isChain _ hchain]

/-- **`sanitize()` meets its specification**, on every name. -/
structure Meets (rawName : List UInt8) : Prop where
  /-- It comes to an end, with no assertion failing. -/
  ends : (sanitize rawName).isSome
  /-- `true` is returned just where the normalized name is fit. -/
  returns : ∀ ok name, sanitize rawName = some (ok, name) → (ok ↔ Fit (normalized rawName))
  /-- Then the name is that, and it is sanitized. -/
  sanitizes : ∀ name, sanitize rawName = some (true, name) → name = normalized rawName ∧ sanitized name
  /-- The name is as it was, if not. -/
  undoes : ∀ name, sanitize rawName = some (false, name) → name = rawName
  /-- A sanitized name is left alone. -/
  leaves : sanitized rawName → sanitize rawName = some (true, rawName)
  /-- To sanitize again changes nothing. -/
  idempotent : ∀ ok name, sanitize rawName = some (ok, name) → sanitize name = some (ok, name)

/-- Every name is sanitized, or refused, as it is to be. -/
theorem sanitize_meets (rawName : List UInt8) : Meets rawName := by
  have hleaves : ∀ name, sanitized name → sanitize name = some (true, name) := by
    intro name hname
    rw [sanitize_eq, normalized_of_sanitized hname, if_pos ((sanitized_iff name).1 hname).1]
  have hsanitized : Fit (normalized rawName) → sanitized (normalized rawName) := fun hfit =>
    (sanitized_iff _).2 ⟨hfit, isChain_collapse _ _⟩
  by_cases hfit : Fit (normalized rawName)
  · have heq : sanitize rawName = some (true, normalized rawName) := by rw [sanitize_eq, if_pos hfit]
    refine ⟨by rw [heq]; rfl, ?_, ?_, ?_, hleaves rawName, ?_⟩
    · intro ok name h
      cases heq.symm.trans h
      exact ⟨fun _ => hfit, fun _ => rfl⟩
    · intro name h
      cases heq.symm.trans h
      exact ⟨rfl, hsanitized hfit⟩
    · intro name h
      cases heq.symm.trans h
    · intro ok name h
      cases heq.symm.trans h
      exact hleaves _ (hsanitized hfit)
  · have heq : sanitize rawName = some (false, rawName) := by rw [sanitize_eq, if_neg hfit]
    refine ⟨by rw [heq]; rfl, ?_, ?_, ?_, hleaves rawName, ?_⟩
    · intro ok name h
      cases heq.symm.trans h
      exact ⟨fun h => absurd h Bool.false_ne_true, fun h => absurd h hfit⟩
    · intro name h
      cases heq.symm.trans h
    · intro name h
      cases heq.symm.trans h
      rfl
    · intro ok name h
      cases heq.symm.trans h
      exact heq

end FlowIpc.Util
