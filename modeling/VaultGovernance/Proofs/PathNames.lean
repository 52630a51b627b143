import Mathlib
import VaultGovernance.Metrics.Path

/-!
# VaultGovernance.Proofs.PathNames

The names of paths in metrics.  A path is scanned twice, and both scans replace
what they find from the left and without overlap.  `Replaced` says so without
saying how the scan goes.

A placeholder stands between braces, which nothing that is looked for contains.
So a scan brings nothing together: what is looked for and stands in the result
stands already in a piece of the text that was kept.  That is why neither scan
leaves a find behind, and why the second makes no new identifier.
-/

namespace VaultGovernance

namespace MetricsPath

/-! ## Replacing what is found -/

/-- What is found begins a text; the relation knows a find by its characters and by
what follows them. -/
def Begins (Found : List Char → List Char → Prop) (s : List Char) : Prop :=
  ∃ m rest, Found m rest ∧ s = m ++ rest

/-- The second text is the first one after a scan from the left.  Where a find begins, it
gives way to `put` and the scan goes on behind it; any other character is kept. -/
inductive Replaced (Found : List Char → List Char → Prop) (put : List Char) :
    List Char → List Char → Prop
  | nil : Replaced Found put [] []
  | kept {c : Char} {s t : List Char} (clear : ¬ Begins Found (c :: s))
      (rest : Replaced Found put s t) : Replaced Found put (c :: s) (c :: t)
  | swapped {m s t : List Char} (found : Found m s)
      (rest : Replaced Found put s t) : Replaced Found put (m ++ s) (put ++ t)

/-- Finds that a scan tells apart, and their replacement: a find is not empty, only one
begins at a place, and the replacement has an opening brace where it stops agreeing with the
find. -/
structure Bracketed (Found : List Char → List Char → Prop) (put : List Char) : Prop where
  nonempty : ∀ {m rest}, Found m rest → m ≠ []
  unique : ∀ {m rest m' rest'}, Found m rest → Found m' rest' → m ++ rest = m' ++ rest' → m = m'
  opens : ∀ {m rest}, Found m rest → ∃ keep, keep <+: m ∧ keep ++ ['\x7b'] <+: put

section Replaced

variable {Found : List Char → List Char → Prop} {put s t t' u : List Char}

/-- A scan of a text in which nothing is found keeps it. -/
theorem Replaced.eq_of_clear (h : Replaced Found put s t)
    (clear : ∀ v, v <:+ s → ¬ Begins Found v) : t = s := by
  induction h with
  | nil => rfl
  | kept _ _ ih => rw [ih fun v hv => clear v (hv.trans (List.suffix_cons _ _))]
  | swapped found _ _ => exact absurd ⟨_, _, found, rfl⟩ (clear _ (List.suffix_refl _))

/-- A text that has no opening brace and begins the result begins what was scanned. -/
theorem Replaced.starts_of_starts (hput : Bracketed Found put) (h : Replaced Found put s t)
    (hu : '\x7b' ∉ u) (hpre : u <+: t) : u <+: s := by
  induction h generalizing u with
  | nil => exact hpre
  | @kept c s t _ _ ih =>
      cases u with
      | nil => exact List.nil_prefix
      | cons d u =>
          obtain ⟨rfl, hrest⟩ := List.cons_prefix_cons.1 hpre
          exact List.cons_prefix_cons.2 ⟨rfl, ih (List.not_mem_of_not_mem_cons hu) hrest⟩
  | @swapped m s t found _ _ =>
      obtain ⟨keep, hkeep, hopens⟩ := hput.opens found
      have hlong : keep ++ ['\x7b'] <+: put ++ t := hopens.trans (List.prefix_append put t)
      have hu_le : u.length ≤ keep.length := by
        by_contra hlt
        have hbrace : keep ++ ['\x7b'] <+: u :=
          List.prefix_of_prefix_length_le hlong hpre (by simp; omega)
        exact hu (hbrace.subset (by simp))
      have hpre_keep : u <+: keep :=
        List.prefix_of_prefix_length_le hpre ((List.prefix_append _ _).trans hlong) hu_le
      exact (hpre_keep.trans hkeep).trans (List.prefix_append m s)

/-- A scan has one result. -/
theorem Replaced.unique (hput : Bracketed Found put) (h : Replaced Found put s t)
    (h' : Replaced Found put s t') : t = t' := by
  induction h generalizing t' with
  | nil =>
      generalize hs : ([] : List Char) = s at h'
      cases h' with
      | nil => rfl
      | kept _ _ => cases hs
      | swapped found _ =>
          exact absurd (List.append_eq_nil_iff.1 hs.symm).1 (hput.nonempty found)
  | @kept c s t clear _ ih =>
      generalize hs : c :: s = s' at h'
      cases h' with
      | nil => cases hs
      | kept _ rest =>
          obtain ⟨rfl, rfl⟩ := List.cons.inj hs
          rw [ih rest]
      | swapped found _ => exact absurd ⟨_, _, found, hs⟩ clear
  | @swapped m s t found _ ih =>
      generalize hs : m ++ s = s' at h'
      cases h' with
      | nil => exact absurd (List.append_eq_nil_iff.1 hs).1 (hput.nonempty found)
      | kept clear _ => exact absurd ⟨_, _, found, hs.symm⟩ clear
      | swapped found' rest =>
          obtain rfl := hput.unique found found' hs
          rw [ih (List.append_cancel_left hs ▸ rest)]

/-- An infix of two texts one after the other begins in the first or lies in the second. -/
theorem prefix_or_infix_of_append {p : List Char} (h : u <:+: p ++ t) :
    (∃ v, v <:+ p ∧ v ≠ [] ∧ u <+: v ++ t) ∨ u <:+: t := by
  induction p with
  | nil => exact .inr h
  | cons c p ih =>
      cases List.infix_cons_iff.1 h with
      | inl hpre => exact .inl ⟨c :: p, List.suffix_refl _, List.cons_ne_nil c p, hpre⟩
      | inr hin =>
          refine (ih hin).imp_left ?_
          rintro ⟨v, hv, hne, hpre⟩
          exact ⟨v, hv.trans (List.suffix_cons c p), hne, hpre⟩

/-- What stands in the result and does not begin in a replacement stands in what was scanned,
at a place where nothing was found. -/
theorem Replaced.exists_kept (hput : Bracketed Found put) (h : Replaced Found put s t)
    (hne : u ≠ []) (hu : '\x7b' ∉ u) (hforeign : ∀ v, v <:+ put → v ≠ [] → ∀ t, ¬ u <+: v ++ t)
    (hin : u <:+: t) : ∃ v, v <:+ s ∧ u <+: v ∧ ¬ Begins Found v := by
  induction h with
  | nil => exact absurd (List.infix_nil.1 hin) hne
  | @kept c s t clear rest ih =>
      cases List.infix_cons_iff.1 hin with
      | inl hpre =>
          exact ⟨c :: s, List.suffix_refl _,
            (Replaced.kept clear rest).starts_of_starts hput hu hpre,
            clear⟩
      | inr hin =>
          obtain ⟨v, hv, hkept⟩ := ih hin
          exact ⟨v, hv.trans (List.suffix_cons c s), hkept⟩
  | @swapped m s t _ _ ih =>
      cases prefix_or_infix_of_append hin with
      | inl hinside =>
          obtain ⟨v, hv, hvne, hpre⟩ := hinside
          exact absurd hpre (hforeign v hv hvne t)
      | inr hin =>
          obtain ⟨v, hv, hkept⟩ := ih hin
          exact ⟨v, hv.trans (List.suffix_append m s), hkept⟩

end Replaced

/-! ## Identifiers -/

/-- A group of hexadecimal digits, in either letter case. -/
structure HexGroup (width : Nat) (g : List Char) : Prop where
  length : g.length = width
  digits : ∀ c ∈ g, isHexDigit c = true

/-- An identifier as a path writes it: groups of 8, 4, 4, 4 and 12 hexadecimal digits. -/
def IsUuid (u : List Char) : Prop :=
  ∃ a b c d e, HexGroup 8 a ∧ HexGroup 4 b ∧ HexGroup 4 c ∧ HexGroup 4 d ∧ HexGroup 12 e ∧
    u = a ++ '-' :: (b ++ '-' :: (c ++ '-' :: (d ++ '-' :: e)))

section IsUuid

variable {u : List Char}

theorem IsUuid.length (h : IsUuid u) : u.length = 36 := by
  obtain ⟨a, b, c, d, e, ha, hb, hc, hd, he, rfl⟩ := h
  simp [ha.length, hb.length, hc.length, hd.length, he.length]

theorem IsUuid.ne_nil (h : IsUuid u) : u ≠ [] :=
  List.ne_nil_of_length_pos (by rw [h.length]; decide)

theorem IsUuid.chars (h : IsUuid u) : ∀ x ∈ u, isHexDigit x = true ∨ x = '-' := by
  obtain ⟨a, b, c, d, e, ha, hb, hc, hd, he, rfl⟩ := h
  intro x hx
  simp only [List.mem_append, List.mem_cons] at hx
  rcases hx with hx | hx | hx | hx | hx | hx | hx | hx | hx
  exacts [.inl (ha.digits x hx), .inr hx, .inl (hb.digits x hx), .inr hx, .inl (hc.digits x hx),
    .inr hx, .inl (hd.digits x hx), .inr hx, .inl (he.digits x hx)]

/-- An identifier has no brace. -/
theorem IsUuid.not_mem_brace (h : IsUuid u) : '\x7b' ∉ u ∧ '\x7d' ∉ u := by
  constructor <;>
    · intro hbrace
      rcases h.chars _ hbrace with hdigit | hhyphen
      · exact absurd hdigit (by decide)
      · exact absurd hhyphen (by decide)

/-- No identifier begins in a replacement that ends with a closing brace before the
identifier could end. -/
theorem IsUuid.foreign (h : IsUuid u) {put : List Char} (hlength : put.length ≤ 36)
    (hcloses : ['\x7d'] <:+ put) : ∀ v, v <:+ put → v ≠ [] → ∀ t, ¬ u <+: v ++ t := by
  intro v hv hne t hpre
  have hinside : v <+: u :=
    List.prefix_of_prefix_length_le (List.prefix_append v t) hpre
      (h.length ▸ hv.length_le.trans hlength)
  have hbrace : ['\x7d'] <:+ v :=
    List.suffix_of_suffix_length_le hcloses hv (List.length_pos_iff.2 hne)
  exact h.not_mem_brace.2 (hinside.subset (hbrace.subset (List.mem_singleton.2 rfl)))

end IsUuid

/-- Identifiers are told apart and replaced by the placeholder. -/
theorem bracketed_uuid : Bracketed (fun u _ => IsUuid u) placeholder where
  nonempty h := h.ne_nil
  unique h h' hs := (List.append_inj hs (h.length.trans h'.length.symm)).1
  opens _ := ⟨[], List.nil_prefix, by decide⟩

/-! ## Numbers behind a slash -/

/-- A slash with digits of any script behind it, up to where no more digits follow. -/
def IsNumber (m rest : List Char) : Prop :=
  ∃ ds, m = '/' :: ds ∧ ds ≠ [] ∧ (∀ c ∈ ds, isDigit c = true) ∧ startsWithDigit rest = false

section IsNumber

variable {m rest s : List Char}

/-- The digits behind a slash are all that the text goes on with. -/
theorem takeWhile_of_digits {ds : List Char} (hds : ∀ c ∈ ds, isDigit c = true)
    (hend : startsWithDigit rest = false) : (ds ++ rest).takeWhile isDigit = ds := by
  rw [List.takeWhile_append_of_pos hds]
  cases rest with
  | nil => rw [List.takeWhile_nil, List.append_nil]
  | cons c rest => rw [List.takeWhile_cons_of_neg (by simpa [startsWithDigit] using hend),
      List.append_nil]

/-- A number begins where a slash stands before a digit. -/
theorem begins_number_iff {c : Char} :
    Begins IsNumber (c :: s) ↔ c = '/' ∧ startsWithDigit s = true := by
  constructor
  · rintro ⟨m, rest, ⟨ds, rfl, hne, hds, -⟩, hs⟩
    obtain ⟨rfl, rfl⟩ := List.cons.inj hs
    cases ds with
    | nil => exact absurd rfl hne
    | cons d ds => exact ⟨rfl, hds d List.mem_cons_self⟩
  · rintro ⟨rfl, hstart⟩
    cases s with
    | nil => cases hstart
    | cons d s =>
        have hd : isDigit d = true := hstart
        refine ⟨'/' :: (d :: s).takeWhile isDigit, (d :: s).dropWhile isDigit,
          ⟨_, rfl, ?_, fun c hc => List.mem_takeWhile_imp hc, ?_⟩, ?_⟩
        · rw [List.takeWhile_cons_of_pos hd]
          exact List.cons_ne_nil _ _
        · cases hrest : (d :: s).dropWhile isDigit with
          | nil => rfl
          | cons e rest =>
              have hhead := List.head?_dropWhile_not isDigit (d :: s)
              rw [hrest] at hhead
              simpa [startsWithDigit] using hhead
        · rw [List.cons_append, List.takeWhile_append_dropWhile]

/-- Numbers are told apart and replaced by the placeholder behind their slash. -/
theorem bracketed_number : Bracketed IsNumber ('/' :: placeholder) where
  nonempty := by
    rintro _ _ ⟨ds, rfl, -⟩
    exact List.cons_ne_nil _ _
  unique := by
    rintro _ rest _ rest' ⟨ds, rfl, -, hds, hend⟩ ⟨ds', rfl, -, hds', hend'⟩ hs
    have htail : ds ++ rest = ds' ++ rest' := (List.cons.inj hs).2
    rw [← takeWhile_of_digits hds hend, htail, takeWhile_of_digits hds' hend']
  opens := by
    rintro _ _ ⟨ds, rfl, -⟩
    exact ⟨['/'], ⟨ds, rfl⟩, by decide⟩

/-- A slash before a digit does not begin in the placeholder behind a slash. -/
theorem foreign_number {d : Char} (hd : isDigit d = true) :
    ∀ v, v <:+ '/' :: placeholder → v ≠ [] → ∀ t, ¬ ['/', d] <+: v ++ t := by
  intro v hv hne t hpre
  have hbrace : d ≠ '\x7b' := by
    rintro rfl
    exact absurd hd (by decide)
  simp only [placeholder, List.suffix_cons_iff, List.suffix_nil] at hv
  rcases hv with rfl | rfl | rfl | rfl | rfl | rfl
  case inl => exact hbrace (by simpa [List.cons_prefix_cons] using hpre)
  all_goals simp [List.cons_prefix_cons] at hpre hne

end IsNumber

/-! ## The scans -/

/-- A shape that asks for digits first is matched by a group of them. -/
theorem matchesShape_group {n : Nat} {shape : List Bool} {s : List Char} :
    matchesShape (List.replicate n true ++ shape) s = true ↔
      ∃ g rest, HexGroup n g ∧ s = g ++ rest ∧ matchesShape shape rest = true := by
  induction n generalizing s with
  | zero =>
      constructor
      · intro h
        exact ⟨[], s, ⟨rfl, by simp⟩, rfl, h⟩
      · rintro ⟨g, rest, hg, rfl, h⟩
        rw [List.length_eq_zero_iff.1 hg.length]
        exact h
  | succ n ih =>
      cases s with
      | nil =>
          constructor
          · intro h
            cases h
          · rintro ⟨g, rest, hg, hs, -⟩
            have hlength := hg.length
            rw [(List.append_eq_nil_iff.1 hs.symm).1] at hlength
            cases hlength
      | cons c s =>
          rw [List.replicate_succ, List.cons_append, matchesShape, if_pos rfl, Bool.and_eq_true, ih]
          constructor
          · rintro ⟨hc, g, rest, hg, rfl, h⟩
            refine ⟨c :: g, rest, ⟨by rw [List.length_cons, hg.length], ?_⟩, rfl, h⟩
            exact List.forall_mem_cons.2 ⟨hc, hg.digits⟩
          · rintro ⟨g, rest, hg, hs, h⟩
            cases g with
            | nil => cases hg.length
            | cons x g =>
                obtain ⟨rfl, rfl⟩ := List.cons.inj hs
                obtain ⟨hc, hdigits⟩ := List.forall_mem_cons.1 hg.digits
                exact ⟨hc, g, rest, ⟨Nat.succ.inj hg.length, hdigits⟩, rfl, h⟩

/-- A shape that asks for a hyphen first is matched by one. -/
theorem matchesShape_hyphen {shape : List Bool} {s : List Char} :
    matchesShape (false :: shape) s = true ↔
      ∃ rest, s = '-' :: rest ∧ matchesShape shape rest = true := by
  cases s with
  | nil => simp [matchesShape]
  | cons c s => simp [matchesShape]

/-- The shape is that of an identifier. -/
theorem startsWithUuid_iff {s : List Char} :
    startsWithUuid s = true ↔ Begins (fun u _ => IsUuid u) s := by
  have hshape : uuidShape = List.replicate 8 true ++ false :: (List.replicate 4 true ++
      false :: (List.replicate 4 true ++ false :: (List.replicate 4 true ++
        false :: (List.replicate 12 true ++ [])))) := rfl
  rw [startsWithUuid, hshape]
  simp only [matchesShape_group, matchesShape_hyphen]
  constructor
  · rintro ⟨a, _, ha, rfl, _, rfl, b, _, hb, rfl, _, rfl, c, _, hc, rfl, _, rfl, d, _, hd, rfl, _,
      rfl, e, rest, he, rfl, -⟩
    exact ⟨_, rest, ⟨a, b, c, d, e, ha, hb, hc, hd, he, rfl⟩, by simp⟩
  · rintro ⟨_, rest, ⟨a, b, c, d, e, ha, hb, hc, hd, he, rfl⟩, rfl⟩
    exact ⟨a, _, ha, by simp, _, rfl, b, _, hb, rfl, _, rfl, c, _, hc, rfl, _, rfl, d, _, hd, rfl,
      _, rfl, e, rest, he, rfl, rfl⟩

/-- Characters that are still to be passed over are dropped. -/
theorem replaceUuids_skip (n : Nat) (s : List Char) :
    replaceUuids n s = replaceUuids 0 (s.drop n) := by
  induction s generalizing n with
  | nil => cases n <;> rfl
  | cons c s ih =>
      cases n with
      | zero => rfl
      | succ n => rw [replaceUuids, ih, List.drop_succ_cons]

/-- Identifiers are replaced from the left. -/
theorem replaced_replaceUuids :
    (s : List Char) → Replaced (fun u _ => IsUuid u) placeholder s (replaceUuids 0 s)
  | [] => .nil
  | c :: s => by
      rw [replaceUuids]
      split
      · next h =>
        obtain ⟨u, rest, hu, hs⟩ := startsWithUuid_iff.1 h
        have hrest : s.drop 35 = rest := by
          rw [← List.drop_succ_cons (a := c), hs, List.drop_left' hu.length]
        have hshorter : rest.length < (c :: s).length := by
          rw [hs, List.length_append, hu.length]
          omega
        rw [replaceUuids_skip, hrest, hs]
        exact .swapped hu (replaced_replaceUuids rest)
      · next h => exact .kept (mt startsWithUuid_iff.2 h) (replaced_replaceUuids s)
termination_by s => s.length

/-- The rest of a run of digits is passed over. -/
theorem replaceNumbers_run (s : List Char) :
    replaceNumbers true s = replaceNumbers false (s.dropWhile isDigit) := by
  induction s with
  | nil => rfl
  | cons c s ih =>
      by_cases h : isDigit c = true
      · rw [replaceNumbers, if_pos h, List.dropWhile_cons_of_pos h, ih]
      · rw [replaceNumbers, if_neg h, List.dropWhile_cons_of_neg h, replaceNumbers]

/-- Numbers behind a slash are replaced from the left. -/
theorem replaced_replaceNumbers :
    (s : List Char) → Replaced IsNumber ('/' :: placeholder) s (replaceNumbers false s)
  | [] => .nil
  | c :: s => by
      rw [replaceNumbers]
      split
      · next h =>
        obtain ⟨m, rest, hm, hs⟩ := begins_number_iff.2 h
        obtain ⟨ds, rfl, -, hds, hend⟩ := id hm
        have htail : s = ds ++ rest := (List.cons.inj hs).2
        have hrest : s.dropWhile isDigit = rest := by
          have hsplit : s.takeWhile isDigit ++ s.dropWhile isDigit = s :=
            List.takeWhile_append_dropWhile
          rw [htail, takeWhile_of_digits hds hend, ← htail] at hsplit
          exact List.append_cancel_left (hsplit.trans htail)
        rw [replaceNumbers_run, hrest, hs]
        exact .swapped hm (replaced_replaceNumbers rest)
      · next h => exact .kept (mt begins_number_iff.1 h) (replaced_replaceNumbers s)
termination_by s => s.length

/-! ## What the scans leave -/

section Left

variable {s t u : List Char}

/-- A scan for identifiers leaves none. -/
theorem Replaced.no_uuid (h : Replaced (fun u _ => IsUuid u) placeholder s t) (hu : IsUuid u) :
    ¬ u <:+: t := by
  intro hin
  obtain ⟨v, -, ⟨rest, hv⟩, hclear⟩ := h.exists_kept bracketed_uuid hu.ne_nil hu.not_mem_brace.1
    (hu.foreign (by decide) (by decide)) hin
  exact hclear ⟨u, rest, hu, hv.symm⟩

/-- A scan for numbers makes no identifier. -/
theorem Replaced.infix_uuid (h : Replaced IsNumber ('/' :: placeholder) s t) (hu : IsUuid u)
    (hin : u <:+: t) : u <:+: s := by
  obtain ⟨v, hv, hpre, -⟩ := h.exists_kept bracketed_number hu.ne_nil hu.not_mem_brace.1
    (hu.foreign (by decide) (by decide)) hin
  exact hpre.isInfix.trans hv.isInfix

/-- A scan for numbers leaves no slash before a digit. -/
theorem Replaced.no_number (h : Replaced IsNumber ('/' :: placeholder) s t) {d : Char}
    (hd : isDigit d = true) : ¬ ['/', d] <:+: t := by
  intro hin
  have hbrace : '\x7b' ∉ ['/', d] := by
    rintro (_ | ⟨_, _ | ⟨_, hnil⟩⟩)
    · exact absurd hd (by decide)
    · cases hnil
  obtain ⟨v, -, ⟨rest, rfl⟩, hclear⟩ := h.exists_kept bracketed_number (List.cons_ne_nil _ _)
    hbrace (foreign_number hd) hin
  exact hclear (begins_number_iff.2 ⟨rfl, hd⟩)

/-- A text with no identifier and no slash before a digit is kept. -/
theorem normalizeChars_of_clear (huuid : ∀ u, IsUuid u → ¬ u <:+: s)
    (hnumber : ∀ d, isDigit d = true → ¬ ['/', d] <:+: s) : normalizeChars s = s := by
  have hfirst : replaceUuids 0 s = s := by
    refine (replaced_replaceUuids s).eq_of_clear ?_
    rintro _ hv ⟨u, rest, hu, rfl⟩
    exact huuid u hu ((List.prefix_append u rest).isInfix.trans hv.isInfix)
  rw [normalizeChars, hfirst]
  refine (replaced_replaceNumbers s).eq_of_clear ?_
  rintro _ hv ⟨_, rest, ⟨ds, rfl, hne, hds, -⟩, rfl⟩
  cases ds with
  | nil => exact hne rfl
  | cons d ds =>
      have hpre : ['/', d] <+: '/' :: d :: ds ++ rest := ⟨ds ++ rest, rfl⟩
      exact hnumber d (hds d List.mem_cons_self) (hpre.isInfix.trans hv.isInfix)

end Left

end MetricsPath

open MetricsPath

/-- The name of a path is what two scans make of it, first for identifiers, then for numbers
behind a slash, and nothing else.  It has no identifier and no slash before a digit left, so it
is its own name. -/
theorem path_named (path : String) :
    (∀ name : String, name = normalizePath path ↔
      ∃ middle, Replaced (fun u _ => IsUuid u) placeholder path.toList middle ∧
        Replaced IsNumber ('/' :: placeholder) middle name.toList) ∧
    (∀ u, IsUuid u → ¬ u <:+: (normalizePath path).toList) ∧
    (∀ d, isDigit d = true → ¬ ['/', d] <:+: (normalizePath path).toList) ∧
    normalizePath (normalizePath path) = normalizePath path := by
  have hfirst := replaced_replaceUuids path.toList
  have hsecond := replaced_replaceNumbers (replaceUuids 0 path.toList)
  have hname : (normalizePath path).toList = normalizeChars path.toList := String.toList_ofList
  have huuid : ∀ u, IsUuid u → ¬ u <:+: (normalizePath path).toList := by
    intro u hu hin
    rw [hname] at hin
    exact hfirst.no_uuid hu (hsecond.infix_uuid hu hin)
  have hnumber : ∀ d, isDigit d = true → ¬ ['/', d] <:+: (normalizePath path).toList := by
    intro d hd
    rw [hname]
    exact hsecond.no_number hd
  refine ⟨fun name => ⟨?_, ?_⟩, huuid, hnumber, ?_⟩
  · rintro rfl
    exact ⟨_, hfirst, hname ▸ hsecond⟩
  · rintro ⟨middle, hmiddle, hlast⟩
    obtain rfl := hfirst.unique bracketed_uuid hmiddle
    rw [← String.toList_inj, hname]
    exact hlast.unique bracketed_number hsecond
  · rw [normalizePath, normalizeChars_of_clear huuid hnumber, String.ofList_toList]

example : normalizePath "/vaults/123e4567-E89B-12d3-a456-426614174000/7" =
    "/vaults/\x7bid\x7d/\x7bid\x7d" := by cbv

end VaultGovernance
