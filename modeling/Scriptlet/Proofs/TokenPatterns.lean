import Scriptlet.Proofs.TokenScanning

namespace Scriptlet

section

variable {α : Type} {p : α → Bool} {xs ys rest tail : List α}

theorem head?_dropWhile_neg (p : α → Bool) (xs : List α) :
    ∀ x ∈ (xs.dropWhile p).head?, p x = false := by
  induction xs with
  | nil => simp
  | cons x xs ih =>
    rw [List.dropWhile_cons]
    by_cases hx : p x
    · rwa [if_pos hx]
    · rw [if_neg hx]
      simpa using hx

theorem cut_unique (hx : ∀ x ∈ xs, p x) (hr : ∀ x ∈ rest.head?, p x = false) (hy : ∀ y ∈ ys, p y)
    (ht : ∀ y ∈ tail.head?, p y = false) (h : xs ++ rest = ys ++ tail) : xs = ys ∧ rest = tail := by
  have heq : xs = ys := by rw [← takeWhile_exact hx hr, h, takeWhile_exact hy ht]
  subst heq
  exact ⟨rfl, List.append_cancel_left h⟩

theorem length_le_of_starts (hx : ∀ x ∈ xs, p x) (hy : ∀ y ∈ ys, p y)
    (ht : ∀ y ∈ tail.head?, p y = false) (h : xs <+: ys ++ tail) : xs.length ≤ ys.length := by
  obtain ⟨rest, hrest⟩ := h
  have heq : ys = xs ++ rest.takeWhile p := by
    rw [← List.takeWhile_append_of_pos hx, hrest, takeWhile_exact hy ht]
  rw [heq, List.length_append]
  omega

end

namespace Scan

inductive Pattern : List Char → Prop
  | integer {digits : List Char} (hne : digits ≠ []) (h : ∀ d ∈ digits, d.isDigit) : Pattern digits
  | real {whole fraction : List Char} (hwhole : whole ≠ []) (hw : ∀ d ∈ whole, d.isDigit)
    (hfraction : fraction ≠ []) (hf : ∀ d ∈ fraction, d.isDigit) : Pattern (whole ++ '.' :: fraction)
  | word {c : Char} {cs : List Char} (hc : startsWord c) (hcs : ∀ d ∈ cs, continuesWord d) :
    Pattern (c :: cs)
  | symbol (s : Symbol) : Pattern s.spelling.toList
  | quote {q : Char} (h : q = '"' ∨ q = '\'') : Pattern [q]
  | lineComment {cs : List Char} (h : '\n' ∉ cs) : Pattern ('/' :: '/' :: cs)
  | blockComment : Pattern ['/', '*']
  | space {c : Char} (h : isSpace c) : Pattern [c]

/-- The longest pattern where `lexeme` stands in front of `rest`. -/
def Longest (lexeme rest : List Char) : Prop :=
  Pattern lexeme ∧ ∀ p, Pattern p → p <+: lexeme ++ rest → p.length ≤ lexeme.length

/-- A lexeme in front of `rest` and its token. A text has the contents up to the next quote of the same
kind. -/
inductive Reads (rest : List Char) : List Char → Token → Prop
  | integer {digits : List Char} {n : Int64} (hd : ∀ d ∈ digits, d.isDigit) (h : Longest digits rest)
    (hn : n.toInt = digitsValue digits) : Reads rest digits (.integer n)
  | real {whole fraction : List Char} (hwhole : whole ≠ []) (hw : ∀ d ∈ whole, d.isDigit)
    (hfraction : fraction ≠ []) (hf : ∀ d ∈ fraction, d.isDigit)
    (h : Longest (whole ++ '.' :: fraction) rest) :
    Reads rest (whole ++ '.' :: fraction)
      (.real (.ofScientific (digitsValue (whole ++ fraction)) true fraction.length))
  | word {c : Char} {cs : List Char} (hc : startsWord c) (h : Longest (c :: cs) rest) :
    Reads rest (c :: cs) (.ofWord (.ofList (c :: cs)))
  | symbol {s : Symbol} (h : Longest s.spelling.toList rest) :
    Reads rest s.spelling.toList (.symbol s)
  | text {q : Char} {contents : List Char} (hq : q = '"' ∨ q = '\'') (h : q ∉ contents) :
    Reads rest (q :: contents ++ [q]) (.text (.ofList contents))

inductive Skips (rest : List Char) : List Char → Prop
  | space {c : Char} (h : isSpace c) : Skips rest [c]
  | lineComment {cs : List Char} (h : '\n' ∉ cs) (hrest : ∀ c ∈ rest.head?, c = '\n') :
    Skips rest ('/' :: '/' :: cs)
  | blockComment {cs : List Char} (h : ¬ ['*', '/'] <:+: cs ++ ['*']) :
    Skips rest ('/' :: '*' :: cs ++ ['*', '/'])
  | openComment {cs : List Char} (h : ¬ ['*', '/'] <:+: cs) (hrest : rest = []) :
    Skips rest ('/' :: '*' :: cs)
  | stray {c : Char} (h : ∀ cs, ¬ Pattern (c :: cs)) : Skips rest [c]

inductive Offends (rest : List Char) : List Char → SyntaxError.Cause → Prop
  | quote {q : Char} {cs : List Char} (hq : q = '"' ∨ q = '\'') (h : q ∉ cs) (hrest : rest = []) :
    Offends rest (q :: cs) .unterminatedText
  | digits {digits : List Char} (hd : ∀ d ∈ digits, d.isDigit) (h : Longest digits rest)
    (hvalue : 2 ^ 63 ≤ digitsValue digits) : Offends rest digits .integerTooLarge

inductive Piece.Stands (rest covered : List Char) : Piece → Prop
  | token {t : Token} (h : Reads rest covered t) : Stands rest covered (.token t)
  | gap (h : Skips rest covered) : Stands rest covered .gap
  | fault {cause : SyntaxError.Cause} (h : Offends rest covered cause) :
    Stands rest covered (.fault cause)

namespace Pattern

variable {c : Char} {p cs text : List Char}

theorem ne_nil (h : Pattern p) : p ≠ [] := by
  cases h with
  | integer hne => exact hne
  | symbol s => cases s <;> decide
  | real => simp
  | word | quote | lineComment | blockComment | space => simp

theorem head_eq (h : Pattern p) (hstart : p <+: c :: text) : ∃ cs, p = c :: cs := by
  cases p with
  | nil => exact absurd rfl h.ne_nil
  | cons d cs =>
    obtain ⟨rfl, -⟩ := List.cons_prefix_cons.mp hstart
    exact ⟨cs, rfl⟩

theorem of_cons (h : Pattern (c :: cs)) :
    (c.isDigit ∧ ((∀ d ∈ c :: cs, d.isDigit) ∨ ∃ whole fraction, c :: cs = whole ++ '.' :: fraction ∧
      (∀ d ∈ whole, d.isDigit) ∧ fraction ≠ [] ∧ ∀ d ∈ fraction, d.isDigit)) ∨
    (startsWord c ∧ ∀ d ∈ cs, continuesWord d) ∨
    (∃ s : Symbol, s.spelling.toList = c :: cs) ∨
    (c = '"' ∨ c = '\'') ∨
    (c = '/' ∧ (['/'] <+: cs ∨ ['*'] <+: cs)) ∨
    isSpace c := by
  generalize hp : c :: cs = p at h
  cases h with
  | integer _ hd =>
    have hfirst : c.isDigit := hd c (by rw [← hp]; exact List.mem_cons_self)
    exact .inl ⟨hfirst, .inl hd⟩
  | @real whole fraction hwhole hw hfraction hf =>
    cases whole with
    | nil => exact absurd rfl hwhole
    | cons d whole =>
      obtain rfl := (List.cons.inj hp).1
      exact .inl ⟨hw c List.mem_cons_self, .inr ⟨_, _, rfl, hw, hfraction, hf⟩⟩
  | word hc hcs =>
    obtain ⟨rfl, rfl⟩ := List.cons.inj hp
    exact .inr (.inl ⟨hc, hcs⟩)
  | symbol s => exact .inr (.inr (.inl ⟨s, rfl⟩))
  | quote hq =>
    obtain ⟨rfl, -⟩ := List.cons.inj hp
    exact .inr (.inr (.inr (.inl hq)))
  | lineComment =>
    obtain ⟨rfl, rfl⟩ := List.cons.inj hp
    exact .inr (.inr (.inr (.inr (.inl ⟨rfl, .inl (List.prefix_append ['/'] _)⟩))))
  | blockComment =>
    obtain ⟨rfl, rfl⟩ := List.cons.inj hp
    exact .inr (.inr (.inr (.inr (.inl ⟨rfl, .inr (List.prefix_refl _)⟩))))
  | space hs =>
    obtain ⟨rfl, -⟩ := List.cons.inj hp
    exact .inr (.inr (.inr (.inr (.inr hs))))

theorem of_digit (h : Pattern (c :: cs)) (hc : c.isDigit) : (∀ d ∈ c :: cs, d.isDigit) ∨
    ∃ whole fraction, c :: cs = whole ++ '.' :: fraction ∧ (∀ d ∈ whole, d.isDigit) ∧
      fraction ≠ [] ∧ ∀ d ∈ fraction, d.isDigit := by
  obtain ⟨-, hnumber⟩ | ⟨hword, -⟩ | ⟨s, hs⟩ | hquote | ⟨rfl, -⟩ | hspace := h.of_cons
  · exact hnumber
  · simp [isDigit_of_startsWord hword] at hc
  · obtain ⟨-, hdigit, -⟩ := symbol_starts s c (by rw [hs]; rfl)
    simp [hdigit] at hc
  · rcases hquote with rfl | rfl <;> exact absurd hc (by decide)
  · exact absurd hc (by decide)
  · simp [isSpace_of_isDigit hc] at hspace

theorem of_word (h : Pattern (c :: cs)) (hc : startsWord c) : ∀ d ∈ c :: cs, continuesWord d := by
  obtain ⟨hdigit, -⟩ | ⟨-, hcs⟩ | ⟨s, hs⟩ | hquote | ⟨rfl, -⟩ | hspace := h.of_cons
  · simp [isDigit_of_startsWord hc] at hdigit
  · simp only [List.mem_cons, forall_eq_or_imp]
    exact ⟨by simp [continuesWord, hc], hcs⟩
  · obtain ⟨-, -, hword, -⟩ := symbol_starts s c (by rw [hs]; rfl)
    simp [hword] at hc
  · rcases hquote with rfl | rfl <;> exact absurd hc (by decide)
  · exact absurd hc (by decide)
  · simp [isSpace_of_startsWord hc] at hspace

theorem of_mark (h : Pattern (c :: cs)) (hspace : isSpace c = false) (hdigit : c.isDigit = false)
    (hword : startsWord c = false) (hquote : ¬ (c = '"' ∨ c = '\'')) :
    (∃ s : Symbol, s.spelling.toList = c :: cs) ∨
      c = '/' ∧ (['/'] <+: cs ∨ ['*'] <+: cs) := by
  obtain ⟨hc, -⟩ | ⟨hc, -⟩ | hsymbol | hc | hcomment | hc := h.of_cons
  · simp [hdigit] at hc
  · simp [hword] at hc
  · exact .inl hsymbol
  · exact absurd hc hquote
  · exact .inr hcomment
  · simp [hspace] at hc

end Pattern

theorem Longest.intro {c : Char} {cs rest : List Char} (h : Pattern (c :: cs))
    (hlongest : ∀ ds, Pattern (c :: ds) → c :: ds <+: c :: cs ++ rest → ds.length ≤ cs.length) :
    Longest (c :: cs) rest := by
  refine ⟨h, fun p hp hstart => ?_⟩
  obtain ⟨ds, rfl⟩ := hp.head_eq hstart
  exact Nat.succ_le_succ (hlongest ds hp hstart)

theorem longest_integer {c : Char} {cs rest : List Char} (hd : ∀ d ∈ c :: cs, d.isDigit)
    (hr : ∀ d ∈ rest.head?, d.isDigit = false ∧ (d = '.' → ∀ d' ∈ rest.tail.head?, d'.isDigit = false)) :
    Longest (c :: cs) rest := by
  have hstop : ∀ d ∈ rest.head?, d.isDigit = false := fun d h => (hr d h).1
  refine .intro (.integer (by simp) hd) fun ds hp hstart => ?_
  obtain hds | ⟨whole, fraction, heq, hw, hfraction, hf⟩ := hp.of_digit (hd c List.mem_cons_self)
  · exact Nat.le_of_succ_le_succ (length_le_of_starts hds hd hstop hstart)
  · obtain ⟨tail, htail⟩ := hstart
    rw [heq, List.append_assoc] at htail
    obtain ⟨-, rfl⟩ := cut_unique hw (by rintro _ ⟨⟩; decide) hd hstop htail
    cases fraction with
    | nil => exact absurd rfl hfraction
    | cons d fraction =>
      have hdigit := hf d List.mem_cons_self
      rw [(hr '.' rfl).2 rfl d rfl] at hdigit
      cases hdigit

theorem longest_real {c : Char} {whole fraction rest : List Char} (hw : ∀ d ∈ c :: whole, d.isDigit)
    (hfraction : fraction ≠ []) (hf : ∀ d ∈ fraction, d.isDigit)
    (hr : ∀ d ∈ rest.head?, d.isDigit = false) :
    Longest (c :: whole ++ '.' :: fraction) rest := by
  have hpoint {tail : List Char} : ∀ d ∈ ('.' :: tail).head?, d.isDigit = false := by
    rintro _ ⟨⟩
    decide
  have hreal : Pattern (c :: whole ++ '.' :: fraction) := .real (by simp) hw hfraction hf
  refine Longest.intro hreal fun ds hp hstart => ?_
  change c :: ds <+: (c :: whole ++ '.' :: fraction) ++ rest at hstart
  change ds.length ≤ (whole ++ '.' :: fraction).length
  rw [List.append_assoc] at hstart
  obtain hds | ⟨whole', fraction', heq, hw', -, hf'⟩ := hp.of_digit (hw c List.mem_cons_self)
  · have hlength := length_le_of_starts hds hw hpoint hstart
    simp only [List.length_cons, List.length_append] at hlength ⊢
    omega
  · obtain ⟨tail, htail⟩ := hstart
    rw [heq, List.append_assoc] at htail
    obtain ⟨rfl, hrest⟩ := cut_unique hw' hpoint hw hpoint htail
    have hds : ds = whole ++ '.' :: fraction' := (List.cons.inj heq).2
    have hlength := length_le_of_starts hf' hf hr ⟨tail, (List.cons.inj hrest).2⟩
    simp only [hds, List.length_cons, List.length_append]
    omega

theorem longest_word {c : Char} {cs rest : List Char} (hc : startsWord c)
    (hcs : ∀ d ∈ cs, continuesWord d) (hr : ∀ d ∈ rest.head?, continuesWord d = false) :
    Longest (c :: cs) rest := by
  have hall : ∀ d ∈ c :: cs, continuesWord d := (Pattern.word hc hcs).of_word hc
  refine .intro (.word hc hcs) fun ds hp hstart => ?_
  exact Nat.le_of_succ_le_succ (length_le_of_starts (hp.of_word hc) hall hr hstart)

theorem of_longest? {text : List Char} {s : Symbol} (h : Symbol.longest? text = some s) :
    s.spelling.toList <+: text ∧
      ∀ t : Symbol, t.spelling.toList <+: text → t.spelling.length ≤ s.spelling.length := by
  rw [Symbol.longest?, Symbol.patterns_eq, List.find?_map, Option.map_map] at h
  obtain ⟨t, hfind, rfl⟩ := Option.map_eq_some_iff.mp h
  obtain ⟨hs, before, after, hsplit, hbefore⟩ := List.find?_eq_some_iff_append.mp hfind
  refine ⟨List.isPrefixOf_iff_prefix.mp hs, fun u hu => ?_⟩
  have hsorted := Symbol.byLength_sorted
  rw [hsplit, List.pairwise_append] at hsorted
  have hmem := u.mem_byLength
  rw [hsplit, List.mem_append] at hmem
  rcases hmem with hmem | hmem
  · have hnot := hbefore u hmem
    simp [List.isPrefixOf_iff_prefix.mpr hu] at hnot
  · obtain rfl | hmem := List.mem_cons.mp hmem
    · exact Nat.le_refl _
    · exact (List.pairwise_cons.mp hsorted.2.1).1 u hmem

theorem exists_symbol_of_head {s : Symbol} {c : Char} {cs : List Char}
    (h : s.spelling.toList = c :: cs) : ∃ t : Symbol, t.spelling.toList = [c] := by
  have hhead : s.spelling.toList.head? = some c := by rw [h]; rfl
  refine ⟨(Symbol.longest? [c]).getD s, ?_⟩
  clear h
  revert hhead
  cases s <;> (rintro ⟨⟩; decide)

theorem of_longest?_none {c : Char} {text : List Char} (h : Symbol.longest? (c :: text) = none)
    (s : Symbol) (cs : List Char) : s.spelling.toList ≠ c :: cs := by
  intro hs
  obtain ⟨t, ht⟩ := exists_symbol_of_head hs
  have hsome := longest_isSome t text
  rw [ht, List.singleton_append, h] at hsome
  cases hsome

theorem integerPiece_stands {digits rest : List Char} (hd : ∀ d ∈ digits, d.isDigit)
    (h : Longest digits rest) : (integerPiece digits).Stands rest digits := by
  rw [integerPiece_eq]
  cases hn : Number.word? (digitsValue digits) with
  | some n => exact .token (.integer hd h (Number.toInt_of_word? hn))
  | none =>
    refine .fault (.digits hd h ?_)
    by_contra hlt
    rw [Number.word?, if_pos (by unfold Number.wordBound; omega)] at hn
    cases hn

theorem takeWhile_mem (p : Char → Bool) (text : List Char) : ∀ d ∈ text.takeWhile p, p d :=
  fun d hd => List.all_eq_true.mp List.all_takeWhile d hd

theorem number_stands {c : Char} {text : List Char} (hc : c.isDigit) :
    (number (c :: text)).piece.Stands (number (c :: text)).rest (number (c :: text)).covered := by
  have hwhole := takeWhile_mem Char.isDigit (c :: text)
  have hstop := head?_dropWhile_neg Char.isDigit (c :: text)
  simp only [number]
  rw [List.takeWhile_cons_of_pos hc] at hwhole ⊢
  split
  · next tail htail =>
    split
    · next hempty =>
      dsimp only
      refine integerPiece_stands hwhole (longest_integer hwhole ?_)
      rintro d ⟨⟩
      refine ⟨by decide, fun _ d' hd' => ?_⟩
      cases tail with
      | nil => cases hd'
      | cons e tail =>
        obtain rfl := Option.some.inj hd'
        by_contra he
        simp [he] at hempty
    · next hempty =>
      have hfraction : tail.takeWhile Char.isDigit ≠ [] := by simpa using hempty
      refine .token (.real (by simp) hwhole hfraction (takeWhile_mem _ _) ?_)
      exact longest_real hwhole hfraction (takeWhile_mem _ _) (head?_dropWhile_neg _ _)
  · next hpoint =>
    dsimp only
    refine integerPiece_stands hwhole (longest_integer hwhole fun d hd => ⟨hstop d hd, ?_⟩)
    rintro rfl
    obtain ⟨tail, htail⟩ := List.head?_eq_some_iff.mp hd
    exact (hpoint tail htail).elim

theorem word_stands {c : Char} {text : List Char} (hc : startsWord c) :
    (word (c :: text)).piece.Stands (word (c :: text)).rest (word (c :: text)).covered := by
  have hcontinues : continuesWord c := by simp [continuesWord, hc]
  have hstop := head?_dropWhile_neg continuesWord (c :: text)
  simp only [word, List.takeWhile_cons_of_pos hcontinues]
  exact .token (.word hc (longest_word hc (takeWhile_mem _ _) hstop))

theorem quoted_stands {q : Char} (hq : q = '"' ∨ q = '\'') (text : List Char) :
    (quoted q text).piece.Stands (quoted q text).rest (quoted q text).covered := by
  have hcontents : q ∉ text.takeWhile (· ≠ q) := by
    intro hmem
    exact of_decide_eq_true (takeWhile_mem _ _ q hmem) rfl
  have hstop := head?_dropWhile_neg (· ≠ q) text
  unfold quoted
  dsimp only
  split
  · exact .fault (.quote hq hcontents rfl)
  · next closing rest hclosing =>
    rw [hclosing] at hstop
    obtain rfl : closing = q := by simpa using hstop closing rfl
    exact .token (.text hq hcontents)

theorem blockComment_skips (text : List Char) :
    Skips (blockComment text).2 ('/' :: '*' :: (blockComment text).1) := by
  have hends : (∃ cs, (blockComment text).1 = cs ++ ['*', '/'] ∧ ¬ ['*', '/'] <:+: cs ++ ['*']) ∨
      ¬ ['*', '/'] <:+: (blockComment text).1 ∧ (blockComment text).2 = [] := by
    fun_induction blockComment text with
    | case1 rest => exact .inl ⟨[], rfl, by decide⟩
    | case2 c rest hnot ih =>
      have happend := blockComment_append rest
      -- The character does not close the comment together with what follows it.
      have hcons {us vs : List Char} (huv : us ++ vs = rest) (hus : ¬ ['*', '/'] <:+: us) :
          ¬ ['*', '/'] <:+: c :: us := by
        rw [List.infix_cons_iff, not_or]
        refine ⟨fun hstart => ?_, hus⟩
        obtain ⟨rfl, tail, rfl⟩ := List.cons_prefix_cons.mp hstart
        exact hnot (tail ++ vs) rfl huv.symm
      obtain ⟨cs, hcs, hfirst⟩ | ⟨hnone, hrest⟩ := ih
      · rw [hcs] at happend ⊢
        exact .inl ⟨c :: cs, rfl, hcons (by simpa using happend) hfirst⟩
      · rw [hrest] at happend
        exact .inr ⟨hcons happend hnone, hrest⟩
    | case3 => exact .inr ⟨by decide, rfl⟩
  obtain ⟨cs, hcs, hfirst⟩ | ⟨hnone, hrest⟩ := hends
  · rw [hcs]
    exact .blockComment hfirst
  · exact .openComment hnone hrest

theorem symbol_stands {c : Char} {text : List Char} (hspace : isSpace c = false)
    (hdigit : c.isDigit = false) (hword : startsWord c = false) (hquote : ¬ (c = '"' ∨ c = '\''))
    (hcomment : c = '/' → ¬ ['/'] <+: text ∧ ¬ ['*'] <+: text) :
    (symbol c text).piece.Stands (symbol c text).rest (symbol c text).covered := by
  unfold symbol
  split
  · next s hs =>
    obtain ⟨hstart, hlongest⟩ := of_longest? hs
    obtain ⟨rest, hrest⟩ := hstart
    have hlength : s.spelling.length = s.spelling.toList.length := by rw [String.length_toList]
    dsimp only
    rw [← hrest, s.pattern_eq, hlength, List.take_left, List.drop_left]
    refine .token (.symbol ⟨.symbol s, fun p hp hstart => ?_⟩)
    rw [hrest] at hstart
    obtain ⟨ds, rfl⟩ := hp.head_eq hstart
    obtain ⟨t, ht⟩ | ⟨hc, hds⟩ := hp.of_mark hspace hdigit hword hquote
    · rw [← ht] at hstart ⊢
      simpa only [String.length_toList] using hlongest t hstart
    · have htext : ds <+: text := (List.cons_prefix_cons.mp hstart).2
      obtain ⟨hline, hblock⟩ := hcomment hc
      rcases hds with hds | hds
      · exact absurd (hds.trans htext) hline
      · exact absurd (hds.trans htext) hblock
  · next hnone =>
    refine .gap (.stray fun cs hp => ?_)
    obtain ⟨s, hs⟩ | ⟨rfl, -⟩ := hp.of_mark hspace hdigit hword hquote
    · exact of_longest?_none hnone s cs hs
    · exact of_longest?_none hnone .slash [] rfl

theorem step_stands (c : Char) (text : List Char) :
    (step c text).piece.Stands (step c text).rest (step c text).covered := by
  unfold step
  by_cases hspace : isSpace c
  · rw [if_pos hspace]
    exact .gap (.space hspace)
  by_cases hdigit : c.isDigit
  · rw [if_neg hspace, if_pos hdigit]
    exact number_stands hdigit
  by_cases hword : startsWord c
  · rw [if_neg hspace, if_neg hdigit, if_pos hword]
    exact word_stands hword
  by_cases hquote : c = '"' ∨ c = '\''
  · rw [if_neg hspace, if_neg hdigit, if_neg hword, if_pos hquote]
    exact quoted_stands hquote text
  rw [if_neg hspace, if_neg hdigit, if_neg hword, if_neg hquote]
  split
  · next tail =>
    refine .gap (.lineComment ?_ fun c hc => ?_)
    · intro hmem
      exact of_decide_eq_true (takeWhile_mem _ _ '\n' hmem) rfl
    · have hstop := head?_dropWhile_neg (· ≠ '\n') tail c hc
      simpa using hstop
  · exact .gap (blockComment_skips _)
  · next hline hblock =>
    apply symbol_stands
    · simpa using hspace
    · simpa using hdigit
    · simpa using hword
    · exact hquote
    · intro hc
      constructor
      · rintro ⟨tail, rfl⟩
        exact hline tail hc rfl
      · rintro ⟨tail, rfl⟩
        exact hblock tail hc rfl

end Scan
end Scriptlet
