import EntityStore.Proofs.Sql.Lexing

/-!
# Scanners that look no further than they take

A scanner goes from the front of a text to its back. What it takes before the end of a text should not
depend on what is put behind the text, and it does not if it looks no further than the character that
stops it. `Scan.Local` is this property. Names and constants between quotes have it; a constant only if
nothing behind it goes on with it (`constantBody_settles`).
-/

set_option autoImplicit false

namespace EntityStore

/-- An end of a text that has another text at its end is the end of the front, with that text behind
it. -/
theorem exists_suffix_append {rest v x : List Char} (h : rest <:+ v ++ x)
    (hlength : x.length ≤ rest.length) : ∃ b, b <:+ v ∧ rest = b ++ x := by
  obtain ⟨u, hu⟩ := h
  obtain ⟨b, hv, hrest⟩ | ⟨b, hu', hx⟩ := List.append_eq_append_iff.mp hu
  · exact ⟨b, ⟨u, hv.symm⟩, hrest⟩
  · have hb : b = [] := by
      have := congrArg List.length hx
      rw [List.length_append] at this
      exact List.eq_nil_of_length_eq_zero (by omega)
    subst hb
    exact ⟨[], List.nil_suffix, by simpa using hx.symm⟩

theorem exists_cons_cons {v : List Char} (h : 2 ≤ v.length) : ∃ c d w, v = c :: d :: w := by
  rcases v with _ | ⟨c, _ | ⟨d, w⟩⟩
  · exact absurd h (by simp)
  · exact absurd h (by simp)
  · exact ⟨c, d, w, rfl⟩

namespace Scan

variable {α β : Type}

/-- What every round of a repetition keeps true is true of what is left, and no round goes on from
there. -/
theorem many_left {s : Scan α} {P : List Char → Prop}
    (hs : ∀ {cs a rest}, P cs → s cs = some (a, rest) → P rest) {cs rest : List Char}
    {as : List α} (h : many s cs = some (as, rest)) (hcs : P cs) :
    P rest ∧ ∀ {a rest'}, s rest = some (a, rest') → ¬ rest'.length < rest.length := by
  -- On the length of the text, as repetition goes on only where less is left.
  induction hn : cs.length using Nat.strongRecOn generalizing cs as with
  | ind n ih =>
    rw [many] at h
    cases hstep : s cs with
    | none =>
      rw [hstep] at h
      cases h
      refine ⟨hcs, fun h => ?_⟩
      rw [hstep] at h
      cases h
    | some found =>
      obtain ⟨a, left⟩ := found
      rw [hstep] at h
      simp only at h
      split at h
      · next hlt =>
        obtain ⟨⟨as', rest'⟩, hm, heq⟩ := Option.map_eq_some_iff.mp h
        cases heq
        exact ih left.length (hn ▸ hlt) hm (hs hcs hstep) rfl
      · next hlt =>
        cases h
        refine ⟨hcs, fun h => ?_⟩
        rw [hstep] at h
        cases h
        exact hlt

/-- What a scanner leaves is an end of what it is given, and what it has taken before the end of a
text it takes whatever is behind the text. -/
structure Local (s : Scan α) : Prop where
  shrinks : ∀ {cs a rest}, s cs = some (a, rest) → rest <:+ cs ∧ rest.length < cs.length
  settles : ∀ {v r x a}, s (v ++ x) = some (a, r ++ x) → r ≠ [] →
    ∀ y, s (v ++ y) = some (a, r ++ y)

namespace Local

variable {s : Scan α} {t : Scan β}

theorem of_cons
    (hshrinks : ∀ {cs a rest}, s cs = some (a, rest) → rest <:+ cs ∧ rest.length < cs.length)
    (hsettles : ∀ {c v r x a}, s (c :: (v ++ x)) = some (a, r ++ x) → r ≠ [] →
      ∀ y, s (c :: (v ++ y)) = some (a, r ++ y)) : Local s := by
  refine ⟨hshrinks, ?_⟩
  intro v r x a h hr
  cases v with
  | nil =>
    have hlt := (hshrinks h).2
    rw [List.nil_append, List.length_append] at hlt
    omega
  | cons c v => exact hsettles h hr

/-- What is left where more is left later on. -/
theorem exists_left (hs : Local s) {v x rest r : List Char} {a : α}
    (h : s (v ++ x) = some (a, rest)) (hr : r ++ x <:+ rest) (hne : r ≠ []) :
    ∃ b, b ≠ [] ∧ b.length < v.length ∧ rest = b ++ x := by
  have hpos := List.length_pos_iff.mpr hne
  have hlength := hr.length_le
  rw [List.length_append] at hlength
  obtain ⟨hsuffix, hlt⟩ := hs.shrinks h
  obtain ⟨b, -, rfl⟩ := exists_suffix_append hsuffix (by omega)
  rw [List.length_append] at hlength
  rw [List.length_append, List.length_append] at hlt
  refine ⟨b, ?_, by omega, rfl⟩
  rintro rfl
  rw [List.length_nil] at hlength
  omega

/-- Repetition ends where nothing more is taken. -/
theorem many_shrinks (hs : Local s) {cs rest : List Char} {as : List α}
    (h : many s cs = some (as, rest)) : rest <:+ cs ∧ s rest = none := by
  obtain ⟨hsuffix, hend⟩ := many_left (fun hcs hstep => (hs.shrinks hstep).1.trans hcs) h
    List.suffix_rfl
  refine ⟨hsuffix, Option.eq_none_iff_forall_ne_some.mpr ?_⟩
  rintro ⟨a, rest'⟩ hstep
  exact hend hstep (hs.shrinks hstep).2

/-- Repetition settles where the scanner takes nothing more. -/
theorem many_settles (hs : Local s) {v r x y : List Char} {as : List α}
    (h : many s (v ++ x) = some (as, r ++ x)) (hr : r ≠ []) (hy : s (r ++ y) = none) :
    many s (v ++ y) = some (as, r ++ y) := by
  induction hn : v.length using Nat.strongRecOn generalizing v as with
  | ind n ih =>
    rw [many] at h
    cases hv : s (v ++ x) with
    | none =>
      rw [hv] at h
      obtain ⟨rfl, hvr⟩ := Prod.mk.inj (Option.some.inj h)
      rw [List.append_cancel_right hvr, many_of_eq_none hy]
    | some found =>
      obtain ⟨a, left⟩ := found
      simp only [hv, if_pos (hs.shrinks hv).2] at h
      obtain ⟨⟨as', rest'⟩, hm, heq⟩ := Option.map_eq_some_iff.mp h
      cases heq
      obtain ⟨b, hb, hlt, rfl⟩ := hs.exists_left hv (hs.many_shrinks hm).1 hr
      have hvy := hs.settles hv hb y
      rw [many, hvy]
      simp only [if_pos (hs.shrinks hvy).2, ih b.length (hn ▸ hlt) hm rfl, Option.map_some]

theorem before (hs : Local s) (ht : Local t) : Local (Scan.before s t) := by
  constructor
  · intro cs b rest h
    obtain ⟨⟨a, left⟩, hcs, hleft⟩ := Option.bind_eq_some_iff.mp h
    obtain ⟨hsuffix, hlt⟩ := hs.shrinks hcs
    obtain ⟨hsuffix', hlt'⟩ := ht.shrinks hleft
    exact ⟨hsuffix'.trans hsuffix, Nat.lt_trans hlt' hlt⟩
  · intro v r x b h hr y
    obtain ⟨⟨a, left⟩, hv, hleft⟩ := Option.bind_eq_some_iff.mp h
    obtain ⟨b, hb, -, rfl⟩ := hs.exists_left hv (ht.shrinks hleft).1 hr
    exact Option.bind_eq_some_iff.mpr ⟨(a, b ++ y), hs.settles hv hb y, ht.settles hleft hr y⟩

end Local

end Scan

namespace Sql

/-! ## Names and constants -/

/-- A character between quotes is two quotes, or one of all else. -/
theorem doubled_eq_some_iff {mark c : Char} {cs rest : List Char} :
    doubled mark cs = some (c, rest)
      ↔ c = mark ∧ cs = mark :: mark :: rest ∨ c ≠ mark ∧ cs = c :: rest := by
  cases cs with
  | nil => simp [doubled]
  | cons d cs =>
    -- A quote is taken only together with another one behind it.
    by_cases hd : d = mark
    · subst hd
      cases cs with
      | nil =>
        simp only [doubled, if_true, reduceCtorEq, List.cons.injEq, and_false, false_or, false_iff,
          not_and]
        exact fun hc hcd => absurd hcd.symm hc
      | cons e cs =>
        by_cases he : e = d
        · subst he
          simp only [doubled, if_true, Option.some.injEq, Prod.mk.injEq, List.cons.injEq, true_and]
          constructor
          · rintro ⟨rfl, rfl⟩
            exact .inl ⟨rfl, rfl⟩
          · rintro (⟨rfl, rfl⟩ | ⟨hc, rfl, -⟩)
            · exact ⟨rfl, rfl⟩
            · exact absurd rfl hc
        · simp only [doubled, if_true, if_neg he, reduceCtorEq, List.cons.injEq, false_iff]
          rintro (⟨-, -, rfl, -⟩ | ⟨hc, rfl, -⟩)
          · exact he rfl
          · exact hc rfl
    · simp only [doubled, if_neg hd, Option.some.injEq, Prod.mk.injEq, List.cons.injEq]
      constructor
      · rintro ⟨rfl, rfl⟩
        exact .inr ⟨hd, rfl, rfl⟩
      · rintro (⟨-, rfl, -⟩ | ⟨-, rfl, rfl⟩)
        · exact absurd rfl hd
        · exact ⟨rfl, rfl⟩

theorem local_doubled (mark : Char) : Scan.Local (doubled mark) := by
  constructor
  · intro cs c rest h
    rcases doubled_eq_some_iff.mp h with ⟨-, rfl⟩ | ⟨-, rfl⟩
    · exact ⟨⟨[mark, mark], rfl⟩, Nat.lt_succ_of_lt (Nat.lt_succ_self _)⟩
    · exact ⟨⟨[c], rfl⟩, Nat.lt_succ_self _⟩
  · intro v r x c h _ y
    rcases doubled_eq_some_iff.mp h with ⟨hc, hv⟩ | ⟨hc, hv⟩
    · have hv : v = mark :: mark :: r := List.append_cancel_right (by simpa using hv)
      exact doubled_eq_some_iff.mpr (.inl ⟨hc, by rw [hv]; rfl⟩)
    · have hv : v = c :: r := List.append_cancel_right (by simpa using hv)
      exact doubled_eq_some_iff.mpr (.inr ⟨hc, by rw [hv]; rfl⟩)

theorem append_of_atMost {p : Char → Bool} {n : Nat} {cs ds rest : List Char}
    (h : atMost p n cs = (ds, rest)) : cs = ds ++ rest := by
  induction n generalizing cs ds with
  | zero =>
    obtain ⟨rfl, rfl⟩ := Prod.mk.inj h
    rfl
  | succ n ih =>
    cases cs with
    | nil =>
      obtain ⟨rfl, rfl⟩ := Prod.mk.inj h
      rfl
    | cons c cs =>
      rw [atMost] at h
      split at h
      · obtain ⟨rfl, rfl⟩ := Prod.mk.inj h
        exact congrArg (c :: ·) (ih rfl)
      · obtain ⟨rfl, rfl⟩ := Prod.mk.inj h
        rfl

theorem atMost_settles {p : Char → Bool} {n : Nat} {v r x ds : List Char}
    (h : atMost p n (v ++ x) = (ds, r ++ x)) (hr : r ≠ []) (y : List Char) :
    atMost p n (v ++ y) = (ds, r ++ y) := by
  induction n generalizing v ds with
  | zero =>
    obtain ⟨rfl, hv⟩ := Prod.mk.inj h
    rw [List.append_cancel_right hv]
    rfl
  | succ n ih =>
    cases v with
    | nil =>
      have hlength := congrArg List.length (append_of_atMost h)
      simp only [List.nil_append, List.length_append] at hlength
      exact absurd (List.eq_nil_of_length_eq_zero (by omega)) hr
    | cons c v =>
      simp only [List.cons_append, atMost] at h ⊢
      split at h
      · next hc =>
        obtain ⟨rfl, hrest⟩ := Prod.mk.inj h
        rw [if_pos hc, ih (Prod.ext rfl hrest)]
      · next hc =>
        obtain ⟨rfl, hv⟩ := Prod.mk.inj h
        have hv : c :: v = r := List.append_cancel_right hv
        rw [if_neg hc, ← hv]
        rfl

/-- The character that digits number, or another one where there are no digits. -/
def numbered (p : Char → Bool) (n base : Nat) (cs : List Char) (plain : Char × List Char) :
    Char × List Char :=
  let (digits, rest) := atMost p n cs
  if digits = [] then plain else (Char.ofNat (Numeral.valueIn base digits), rest)

theorem numbered_settles {p : Char → Bool} {n base : Nat} {v w r x : List Char} {c d : Char}
    (h : numbered p n base (v ++ x) (d, w ++ x) = (c, r ++ x)) (hw : w <:+ v) (hr : r ≠ [])
    (y : List Char) : numbered p n base (v ++ y) (d, w ++ y) = (c, r ++ y) := by
  rw [numbered] at h
  obtain ⟨ds, rest, hdigits⟩ : ∃ ds rest, atMost p n (v ++ x) = (ds, rest) := ⟨_, _, rfl⟩
  simp only [hdigits] at h
  split at h
  · next hds =>
    subst hds
    obtain ⟨rfl, hwr⟩ := Prod.mk.inj h
    have hwr : w = r := List.append_cancel_right hwr
    have hv : v ≠ [] := by
      rintro rfl
      exact hr (hwr ▸ List.suffix_nil.mp hw)
    obtain rfl : v ++ x = rest := append_of_atMost hdigits
    simp only [numbered, atMost_settles hdigits hv y, if_true, hwr]
  · next hds =>
    obtain ⟨rfl, rfl⟩ := Prod.mk.inj h
    simp only [numbered, atMost_settles hdigits hr y, if_neg hds]

theorem numbered_shrinks {p : Char → Bool} {n base : Nat} {cs rest : List Char} {c : Char}
    {plain : Char × List Char} (h : numbered p n base cs plain = (c, rest)) :
    plain = (c, rest) ∨ rest <:+ cs ∧ rest.length < cs.length := by
  obtain ⟨ds, rest', hdigits⟩ : ∃ ds rest', atMost p n cs = (ds, rest') := ⟨_, _, rfl⟩
  simp only [numbered, hdigits] at h
  split at h
  · exact .inl h
  · next hds =>
    obtain ⟨-, rfl⟩ := Prod.mk.inj h
    obtain rfl := append_of_atMost hdigits
    have hpos := List.length_pos_iff.mpr hds
    refine .inr ⟨List.suffix_append ds rest', ?_⟩
    rw [List.length_append]
    omega

theorem unicodeEscape_eq_some_iff {n : Nat} {cs rest : List Char} {c : Char} :
    unicodeEscape n cs = some (c, rest) ↔ ∃ ds, atMost Numeral.isHexDigit n cs = (ds, rest)
      ∧ ds.length = n ∧ Char.ofNat (Numeral.valueIn 16 ds) = c := by
  rw [unicodeEscape]
  obtain ⟨ds, rest'⟩ := atMost Numeral.isHexDigit n cs
  simp only [Option.ite_none_right_eq_some, Option.some.injEq, Prod.mk.injEq]
  grind

/-- An escape is a letter for one character, or a number. -/
theorem escape_cases (d : Char) :
    (∃ c, ∀ cs, escape (d :: cs) = some (c, cs))
      ∨ (∃ n, ∀ cs, escape (d :: cs) = unicodeEscape n cs)
      ∨ ∃ p n base u, u <:+ [d]
        ∧ ∀ cs, escape (d :: cs) = some (numbered p n base (u ++ cs) (d, cs)) := by
  by_cases hletter : d ∈ ['b', 'f', 'n', 'r', 't']
  · simp only [List.mem_cons, List.not_mem_nil, or_false] at hletter
    rcases hletter with rfl | rfl | rfl | rfl | rfl
    all_goals exact .inl ⟨_, fun cs => rfl⟩
  by_cases hu : d = 'u'
  · subst hu
    exact .inr (.inl ⟨4, fun cs => rfl⟩)
  by_cases hU : d = 'U'
  · subst hU
    exact .inr (.inl ⟨8, fun cs => rfl⟩)
  by_cases hx : d = 'x'
  · subst hx
    refine .inr (.inr ⟨Numeral.isHexDigit, 2, 16, [], List.nil_suffix, fun cs => ?_⟩)
    rw [escape, numbered, List.nil_append]
    obtain ⟨ds, rest⟩ := atMost Numeral.isHexDigit 2 cs
    cases ds <;> rfl
  · simp only [List.mem_cons, List.not_mem_nil, or_false, not_or] at hletter
    refine .inr (.inr ⟨fun c => '0' ≤ c && c ≤ '7', 3, 8, [d], List.suffix_rfl, fun cs => ?_⟩)
    rw [escape, numbered, List.singleton_append]
    · obtain ⟨ds, rest⟩ := atMost (fun c => '0' ≤ c && c ≤ '7') 3 (d :: cs)
      cases ds <;> rfl
    all_goals grind

theorem local_escape : Scan.Local escape := by
  refine .of_cons ?_ ?_
  -- Something is taken: the letter at least, or the digits that the letter is the first of.
  · intro cs c rest h
    cases cs with
    | nil => cases h
    | cons d cs =>
      have htail (hcs : rest <:+ cs) : rest <:+ d :: cs ∧ rest.length < (d :: cs).length :=
        ⟨hcs.trans (List.suffix_cons d cs), Nat.lt_succ_of_le hcs.length_le⟩
      obtain ⟨c', hd⟩ | ⟨n, hd⟩ | ⟨p, n, base, u, hu, hd⟩ := escape_cases d
      · rw [hd] at h
        cases h
        exact htail List.suffix_rfl
      · rw [hd] at h
        obtain ⟨ds, hdigits, -⟩ := unicodeEscape_eq_some_iff.mp h
        exact htail ⟨ds, (append_of_atMost hdigits).symm⟩
      · rw [hd] at h
        obtain hplain | ⟨hrest, hlt⟩ := numbered_shrinks (Option.some.inj h)
        · cases hplain
          exact htail List.suffix_rfl
        · have hcs : u ++ cs <:+ d :: cs := by
            obtain ⟨w, hw⟩ := hu
            exact ⟨w, by rw [← List.append_assoc, hw, List.singleton_append]⟩
          exact ⟨hrest.trans hcs, Nat.lt_of_lt_of_le hlt hcs.length_le⟩
  -- Only digits read on behind the letter, and where they end in the text they end there.
  · intro d v r x c h hr y
    obtain ⟨c', hd⟩ | ⟨n, hd⟩ | ⟨p, n, base, u, -, hd⟩ := escape_cases d
    · rw [hd] at h ⊢
      obtain ⟨rfl, hv⟩ := Prod.mk.inj (Option.some.inj h)
      rw [List.append_cancel_right hv]
    · rw [hd] at h ⊢
      obtain ⟨ds, hdigits, hds⟩ := unicodeEscape_eq_some_iff.mp h
      exact unicodeEscape_eq_some_iff.mpr ⟨ds, atMost_settles hdigits hr y, hds⟩
    · rw [hd, ← List.append_assoc] at h ⊢
      rw [numbered_settles (Option.some.inj h) (List.suffix_append u v) hr y]

theorem escaped_cons {c : Char} (hc : c ≠ '\\') (cs : List Char) :
    escaped (c :: cs) = doubled '\'' (c :: cs) := by
  rw [escaped]
  rintro cs' h
  exact hc (List.cons.inj h).1

theorem local_escaped : Scan.Local escaped := by
  refine .of_cons ?_ ?_
  · intro cs c rest h
    cases cs with
    | nil => exact (local_doubled '\'').shrinks h
    | cons d cs =>
      by_cases hd : d = '\\'
      · subst hd
        obtain ⟨hrest, hlt⟩ := local_escape.shrinks h
        exact ⟨hrest.trans (List.suffix_cons _ cs), Nat.lt_succ_of_lt hlt⟩
      · rw [escaped_cons hd] at h
        exact (local_doubled '\'').shrinks h
  · intro d v r x c h hr y
    by_cases hd : d = '\\'
    · subst hd
      exact local_escape.settles h hr y
    · rw [escaped_cons hd, ← List.cons_append] at h ⊢
      exact (local_doubled '\'').settles h hr y

/-! A gap by the character at its front. -/

theorem gap_comment (c : Char) (cs : List Char) :
    gap .comment (c :: cs) = gap (if isLineEnd c then .newLine else .comment) cs := by
  rw [gap]

theorem gap_dashes {g : Gap} (hg : g ≠ .comment) (cs : List Char) :
    gap g ('-' :: '-' :: cs) = gap .comment cs := by
  rw [gap]
  exact hg

theorem gap_cons {g : Gap} (hg : g ≠ .comment) {c : Char} {cs : List Char}
    (hc : c = '-' → cs.head? ≠ some '-') :
    gap g (c :: cs) = if isLineEnd c then gap .newLine cs
      else if isSpace c then gap g cs
      else if c = '\'' ∧ g = .newLine then some ((), cs) else none := by
  rw [gap]
  · rintro cs' rfl rfl
    exact hc rfl rfl
  · exact hg

theorem gap_shrinks {g : Gap} {cs rest : List Char} {u : Unit} (h : gap g cs = some (u, rest)) :
    rest <:+ cs ∧ rest.length < cs.length := by
  have htail {c : Char} {g' : Gap} {cs : List Char}
      (ih : gap g' cs = some (u, rest) → rest <:+ cs ∧ rest.length < cs.length)
      (h : gap g' cs = some (u, rest)) : rest <:+ c :: cs ∧ rest.length < (c :: cs).length :=
    ⟨(ih h).1.trans (List.suffix_cons c cs), Nat.lt_succ_of_lt (ih h).2⟩
  fun_induction gap g cs with
  | case1 => cases h
  | case2 c cs ih => exact htail ih h
  | case3 g cs hg ih =>
    obtain ⟨hsuffix, hlt⟩ := htail ih h
    exact ⟨hsuffix.trans (List.suffix_cons _ _), Nat.lt_succ_of_lt hlt⟩
  | case4 g c cs _ _ _ ih => exact htail ih h
  | case5 g c cs _ _ _ _ ih => exact htail ih h
  | case6 =>
    cases h
    exact ⟨List.suffix_cons _ _, Nat.lt_succ_self _⟩
  | case7 => cases h

theorem local_gap (g : Gap) : Scan.Local (gap g) := by
  refine ⟨gap_shrinks, ?_⟩
  intro v r x u h hr y
  induction hn : v.length using Nat.strongRecOn generalizing g v with
  | ind n ih =>
    -- More than one character is taken from the front, because something of it is left.
    have hlt := (gap_shrinks h).2
    have hpos := List.length_pos_iff.mpr hr
    simp only [List.length_append] at hlt
    obtain ⟨c, d, w, rfl⟩ := exists_cons_cons (show 2 ≤ v.length by omega)
    have hd : (d :: w).length < n := by rw [← hn]; exact Nat.lt_succ_self _
    have hw : w.length < n := Nat.lt_trans (Nat.lt_succ_self _) hd
    simp only [List.cons_append] at h ⊢
    by_cases hg : g = .comment
    · subst hg
      rw [gap_comment] at h ⊢
      exact ih _ hd _ h rfl
    by_cases hdashes : c = '-' ∧ d = '-'
    · obtain ⟨rfl, rfl⟩ := hdashes
      rw [gap_dashes hg] at h ⊢
      exact ih _ hw _ h rfl
    · have hc (z : List Char) : c = '-' → (d :: (w ++ z)).head? ≠ some '-' := by
        intro hc hd
        exact hdashes ⟨hc, Option.some.inj hd⟩
      rw [gap_cons hg (hc _)] at h ⊢
      split_ifs at h with hline hspace hquote
      · rw [if_pos hline]
        exact ih _ hd _ h rfl
      · rw [if_neg hline, if_pos hspace]
        exact ih _ hd _ h rfl
      · rw [if_neg hline, if_neg hspace, if_pos hquote]
        obtain ⟨rfl, hw⟩ := Prod.mk.inj (Option.some.inj h)
        have hw : d :: w = r := List.append_cancel_right hw
        rw [← hw, List.cons_append]

/-- What a name or a constant has up to the quote that ends it. -/
theorem quoted_eq_some_iff {part : Scan Char} {mark : Char} {cs as rest : List Char} :
    Scan.after (Scan.many part) (Scan.exactly [mark]) cs = some (as, rest)
      ↔ Scan.many part cs = some (as, mark :: rest) := by
  rw [Scan.after]
  obtain hmany | ⟨⟨as', left⟩, hmany⟩ := Option.eq_none_or_eq_some (Scan.many part cs)
  · simp [hmany]
  · cases left with
    | nil => simp [hmany, Scan.exactly]
    | cons c left =>
      by_cases hc : mark = c
      · simp [hmany, Scan.exactly, hc]
      · simp [hmany, Scan.exactly, hc, Ne.symm hc]

theorem local_quoted {part : Scan Char} {mark : Char} (hpart : Scan.Local part)
    (hmark : ∀ cs, part (mark :: cs) = doubled mark (mark :: cs)) :
    Scan.Local (Scan.after (Scan.many part) (Scan.exactly [mark])) := by
  constructor
  · intro cs as rest h
    obtain ⟨hsuffix, -⟩ := hpart.many_shrinks (quoted_eq_some_iff.mp h)
    exact ⟨(List.suffix_cons mark rest).trans hsuffix, hsuffix.length_le⟩
  · intro v r x as h hr y
    have hmany := quoted_eq_some_iff.mp h
    -- The quote that ends it is no first half of two, and what is behind it does not change that.
    have hend := (hpart.many_shrinks hmany).2
    obtain ⟨c, r, rfl⟩ := List.exists_cons_of_ne_nil hr
    have hnone : part (mark :: c :: r ++ y) = none := by
      have hc : c ≠ mark := by
        rintro rfl
        rw [hmark] at hend
        simp [doubled] at hend
      rw [List.cons_append, List.cons_append, hmark]
      exact doubled_mark (by simpa using hc)
    exact quoted_eq_some_iff.mpr (hpart.many_settles hmany (List.cons_ne_nil _ _) hnone)

theorem constantBody_eq_some_iff {part : Scan Char} {cs taken rest : List Char} :
    constantBody part cs = some (taken, rest) ↔ ∃ first left others,
      Scan.after (Scan.many part) (Scan.exactly ['\'']) cs = some (first, left)
      ∧ Scan.many (Scan.before (gap .sameLine) (Scan.after (Scan.many part) (Scan.exactly ['\''])))
          left = some (others, rest)
      ∧ first ++ others.flatten = taken := by
  constructor
  · intro h
    obtain ⟨⟨parts, left⟩, hparts, heq⟩ := Option.map_eq_some_iff.mp h
    cases heq
    obtain ⟨⟨first, behind⟩, hfirst, hmore⟩ := Option.bind_eq_some_iff.mp hparts
    obtain ⟨⟨others, left⟩, hothers, heq⟩ := Option.bind_eq_some_iff.mp hmore
    cases heq
    exact ⟨first, behind, others, hfirst, hothers, rfl⟩
  · rintro ⟨first, left, others, hfirst, hothers, rfl⟩
    simp [constantBody, Scan.map, Scan.separated, hfirst, hothers]

/-- A quote is the last thing that is taken of a constant. -/
theorem quote_suffix_of_constantBody {part : Scan Char} (hpart : Scan.Local part)
    {cs taken rest : List Char} (h : constantBody part cs = some (taken, rest)) :
    '\'' :: rest <:+ cs := by
  obtain ⟨first, left, others, hfirst, hothers, -⟩ := constantBody_eq_some_iff.mp h
  have hquote {cs' as rest'}
      (hq : Scan.after (Scan.many part) (Scan.exactly ['\'']) cs' = some (as, rest')) :
      '\'' :: rest' <:+ cs' := (hpart.many_shrinks (quoted_eq_some_iff.mp hq)).1
  refine (Scan.many_left (P := ('\'' :: · <:+ cs)) ?_ hothers (hquote hfirst)).1
  intro cs' a rest' hcs hnext
  obtain ⟨⟨_, inner⟩, hgap, hq⟩ := Option.bind_eq_some_iff.mp hnext
  exact (hquote hq).trans ((gap_shrinks hgap).1.trans ((List.suffix_cons _ _).trans hcs))

/-- What has been read as a constant stays one, if what is behind it does not go on with it. -/
theorem constantBody_settles {part : Scan Char} (hpart : Scan.Local part)
    (hmark : ∀ cs, part ('\'' :: cs) = doubled '\'' ('\'' :: cs)) {v r x y taken : List Char}
    (h : constantBody part (v ++ x) = some (taken, r ++ x)) (hr : r ≠ [])
    (hy : gap .sameLine (r ++ y) = none) : constantBody part (v ++ y) = some (taken, r ++ y) := by
  have hquoted := local_quoted hpart hmark
  have hbefore := (local_gap .sameLine).before hquoted
  obtain ⟨first, left, others, hfirst, hothers, htaken⟩ := constantBody_eq_some_iff.mp h
  obtain ⟨b, hb, -, rfl⟩ := hquoted.exists_left hfirst (hbefore.many_shrinks hothers).1 hr
  have hnone : Scan.before (gap .sameLine)
      (Scan.after (Scan.many part) (Scan.exactly ['\''])) (r ++ y) = none := by
    rw [Scan.before, hy]
    rfl
  exact constantBody_eq_some_iff.mpr ⟨first, b ++ y, others, hquoted.settles hfirst hb y,
    hbefore.many_settles hothers hr hnone, htaken⟩

end Sql

end EntityStore
