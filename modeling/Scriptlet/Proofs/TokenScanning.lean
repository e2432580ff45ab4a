import Mathlib
import Scriptlet.Proofs.OperatorTables
import Scriptlet.Proofs.ScannedLiterals
import Scriptlet.Proofs.WrittenFloats

namespace Scriptlet

theorem takeWhile_exact {α : Type} {p : α → Bool} {xs rest : List α} (hx : ∀ x ∈ xs, p x)
    (hr : ∀ x ∈ rest.head?, p x = false) : (xs ++ rest).takeWhile p = xs := by
  rw [List.takeWhile_append_of_pos hx]
  cases rest with
  | nil => simp
  | cons x rest => simp [hr x rfl]

theorem dropWhile_exact {α : Type} {p : α → Bool} {xs rest : List α} (hx : ∀ x ∈ xs, p x)
    (hr : ∀ x ∈ rest.head?, p x = false) : (xs ++ rest).dropWhile p = rest := by
  rw [List.dropWhile_append_of_pos hx]
  cases rest with
  | nil => rfl
  | cons x rest => simp [hr x rfl]

namespace Symbol

/-- The characters that make a longer symbol of this one, or open a comment. -/
def runsOn (s : Symbol) : List Char :=
  byLength.filterMap (fun t =>
    if s.spelling.toList.isPrefixOf t.spelling.toList then
      (t.spelling.toList.drop s.spelling.length).head?
    else none) ++ if s = slash then ['/', '*'] else []

theorem byLength_nodup : byLength.Nodup := by decide

theorem mem_runsOn {s t : Symbol} {c : Char} {tail : List Char}
    (h : t.spelling.toList = s.spelling.toList ++ c :: tail) : c ∈ s.runsOn := by
  refine List.mem_append_left _ (List.mem_filterMap.mpr ⟨t, t.mem_byLength, ?_⟩)
  rw [if_pos (List.isPrefixOf_iff_prefix.mpr ⟨_, h.symm⟩), h]
  simp [← String.length_toList]

theorem longest_append {s : Symbol} {rest : List Char} (h : ∀ c ∈ rest.head?, c ∉ s.runsOn) :
    longest? (s.spelling.toList ++ rest) = some s := by
  obtain ⟨before, after, hsplit⟩ := List.append_of_mem s.mem_byLength
  have hsorted := byLength_sorted
  have hnodup := byLength_nodup
  rw [hsplit, List.pairwise_append] at hsorted
  rw [hsplit, List.nodup_append] at hnodup
  have hfind : byLength.find? (fun t => t.spelling.toList.isPrefixOf (s.spelling.toList ++ rest)) =
      some s := by
    refine List.find?_eq_some_iff_append.mpr ⟨by simp, before, after, hsplit, fun t ht => ?_⟩
    rw [Bool.not_eq_true', Bool.eq_false_iff]
    intro hprefix
    have hlength : s.spelling.length ≤ t.spelling.length := hsorted.2.2 t ht s List.mem_cons_self
    -- The symbol before `s` in the table is not shorter, so it runs on where `s` ends.
    obtain ⟨tail, htail⟩ : s.spelling.toList <+: t.spelling.toList :=
      List.prefix_of_prefix_length_le (List.prefix_append ..) (List.isPrefixOf_iff_prefix.mp hprefix)
        (by simpa only [String.length_toList] using hlength)
    cases tail with
    | nil =>
      rw [List.append_nil] at htail
      exact hnodup.2.2 t ht s List.mem_cons_self (spelling_inj (String.toList_injective htail.symm))
    | cons c tail =>
      rw [← htail, List.isPrefixOf_iff_prefix, List.prefix_append_right_inj] at hprefix
      obtain ⟨_, rfl⟩ := hprefix
      exact h c rfl (mem_runsOn htail.symm)
  rw [longest?, patterns_eq, List.find?_map]
  simp only [Function.comp_def, hfind, Option.map_some]

end Symbol

namespace Token

def Ends : Token → List Char → Prop
  | symbol s, rest => ∀ c ∈ rest.head?, c ∉ s.runsOn
  | integer _, rest =>
    ∀ c ∈ rest.head?, c.isDigit = false ∧ (c = '.' → ∀ d ∈ rest.tail.head?, d.isDigit = false)
  | real _, rest => ∀ c ∈ rest.head?, c.isDigit = false
  | text _, _ => True
  | boolean _, rest | keyword _, rest | name _, rest =>
    ∀ c ∈ rest.head?, Scan.continuesWord c = false

def IsWord (t : Token) : Prop :=
  ∃ c cs, t.spelling.toList = c :: cs ∧ Scan.startsWord c ∧ (∀ d ∈ cs, Scan.continuesWord d) ∧
    ofWord t.spelling = t

def Legible : Token → Prop
  | integer n => 0 ≤ n.toInt
  | real x => Scan.tokens (Number.Style.literal.write x) = .ok [⟨.real x, 1⟩]
  | text s => '\'' ∉ s.toList
  | name s => (name s).IsWord
  | boolean _ | keyword _ | symbol _ => True

end Token

namespace Scan

theorem isSpace_of_startsWord {c : Char} (h : startsWord c) : isSpace c = false := by
  rw [Bool.eq_false_iff]
  intro hs
  simp only [isSpace, Bool.or_eq_true, decide_eq_true_eq] at hs
  rcases hs with (((rfl | rfl) | rfl) | rfl) | rfl <;> revert h <;> decide

theorem isDigit_of_startsWord {c : Char} (h : startsWord c) : c.isDigit = false := by
  rw [Bool.eq_false_iff]
  intro hd
  have hlow : c.toNat < 128 := by
    simp only [Char.isDigit, Bool.and_eq_true, decide_eq_true_eq] at hd
    exact Nat.lt_of_le_of_lt hd.2 (by decide)
  simp only [startsWord, Text.isLetter, hlow, if_true, Bool.or_eq_true, decide_eq_true_eq] at h
  rcases h with ((h | rfl) | rfl) | rfl
  · simp [Char.isAlpha, Char.isUpper, Char.isLower, Char.isDigit] at h hd
    grind
  all_goals revert hd; decide

theorem step_word {c : Char} {cs rest : List Char} (hc : startsWord c)
    (hcs : ∀ d ∈ cs, continuesWord d) (hr : ∀ d ∈ rest.head?, continuesWord d = false) :
    step c (cs ++ rest) = ⟨.token (.ofWord (.ofList (c :: cs))), c :: cs, rest⟩ := by
  have hall : ∀ d ∈ c :: cs, continuesWord d := by
    simp only [List.mem_cons, forall_eq_or_imp]
    exact ⟨by simp [continuesWord, hc], hcs⟩
  unfold step
  rw [if_neg (by simp [isSpace_of_startsWord hc]), if_neg (by simp [isDigit_of_startsWord hc]),
    if_pos hc, word, ← List.cons_append, takeWhile_exact hall hr, dropWhile_exact hall hr]

theorem isSpace_of_isDigit {c : Char} (h : c.isDigit) : isSpace c = false := by
  rw [Bool.eq_false_iff]
  intro hs
  simp only [isSpace, Bool.or_eq_true, decide_eq_true_eq] at hs
  rcases hs with (((rfl | rfl) | rfl) | rfl) | rfl <;> revert h <;> decide

theorem step_integer {c : Char} {cs rest : List Char} (hc : ∀ d ∈ c :: cs, d.isDigit)
    (hr : ∀ d ∈ rest.head?, d.isDigit = false ∧ (d = '.' → ∀ d' ∈ rest.tail.head?, d'.isDigit = false)) :
    step c (cs ++ rest) = ⟨integerPiece (c :: cs), c :: cs, rest⟩ := by
  have hdigit : c.isDigit := hc c List.mem_cons_self
  have hstop : ∀ d ∈ rest.head?, d.isDigit = false := fun d hd => (hr d hd).1
  unfold step
  rw [if_neg (by simp [isSpace_of_isDigit hdigit]), if_pos hdigit, number, ← List.cons_append]
  simp only [takeWhile_exact hc hstop, dropWhile_exact hc hstop]
  split
  · next tail =>
    have hempty : tail.takeWhile Char.isDigit = [] :=
      takeWhile_exact (List.forall_mem_nil _) ((hr '.' rfl).2 rfl)
    rw [if_pos (by rw [hempty]; rfl)]
  · rfl

theorem step_real {c : Char} {cs fraction rest : List Char} (hc : ∀ d ∈ c :: cs, d.isDigit)
    (hf : ∀ d ∈ fraction, d.isDigit) (hne : fraction ≠ []) (hr : ∀ d ∈ rest.head?, d.isDigit = false) :
    step c (cs ++ '.' :: fraction ++ rest) =
      ⟨realPiece (c :: cs) fraction, c :: cs ++ '.' :: fraction, rest⟩ := by
  have hdigit : c.isDigit := hc c List.mem_cons_self
  have hpoint : ∀ d ∈ ('.' :: (fraction ++ rest)).head?, d.isDigit = false := by
    rintro _ ⟨⟩
    decide
  unfold step
  rw [if_neg (by simp [isSpace_of_isDigit hdigit]), if_pos hdigit, number, List.append_assoc,
    List.cons_append, ← List.cons_append]
  simp only [takeWhile_exact hc hpoint, dropWhile_exact hc hpoint, takeWhile_exact hf hr,
    dropWhile_exact hf hr]
  rw [if_neg (by simpa using hne)]

theorem step_quote {q : Char} (hq : q = '"' ∨ q = '\'') (text : List Char) :
    step q text = quoted q text := by
  rcases hq with rfl | rfl <;> rfl

theorem forall_ne {q : Char} {contents : List Char} (h : q ∉ contents) :
    ∀ c ∈ contents, decide (c ≠ q) :=
  fun _ hc => decide_eq_true fun he => h (he ▸ hc)

theorem step_quoted {q : Char} {contents rest : List Char} (hq : q = '"' ∨ q = '\'')
    (h : q ∉ contents) : step q (contents ++ q :: rest) =
      ⟨.token (.text (.ofList contents)), q :: contents ++ [q], rest⟩ := by
  have hr : ∀ c ∈ (q :: rest).head?, decide (c ≠ q) = false := by
    rintro _ ⟨⟩
    simp
  rw [step_quote hq, quoted, takeWhile_exact (forall_ne h) hr, dropWhile_exact (forall_ne h) hr]

theorem symbol_starts (s : Symbol) : ∀ c ∈ s.spelling.toList.head?,
    isSpace c = false ∧ c.isDigit = false ∧ startsWord c = false ∧ ¬ (c = '"' ∨ c = '\'') ∧
      (c = '/' → s = .slash ∨ s.spelling.toList = ['/', '=']) := by
  cases s <;> (rintro _ ⟨⟩; decide)

theorem step_symbol_of_longest {s : Symbol} {c : Char} {cs rest : List Char}
    (hs : s.spelling.toList = c :: cs) (hlongest : Symbol.longest? (c :: (cs ++ rest)) = some s)
    (hcomment : s = .slash → ∀ d ∈ rest.head?, d ∉ ['/', '*']) :
    step c (cs ++ rest) = ⟨.token (.symbol s), c :: cs, rest⟩ := by
  have hlength : s.spelling.length = (c :: cs).length := by rw [← hs, String.length_toList]
  have hsymbol : symbol c (cs ++ rest) = ⟨.token (.symbol s), c :: cs, rest⟩ := by
    rw [symbol, hlongest]
    simp only [Symbol.pattern_eq, hlength, ← List.cons_append, List.take_left, List.drop_left]
  obtain ⟨hspace, hdigit, hword, hquote, hslash⟩ := symbol_starts s c (by rw [hs]; rfl)
  have hnone {d : Char} {tail : List Char} (hc : c = '/') (hd : d ∈ ['/', '*'])
      (he : cs ++ rest = d :: tail) : False := by
    obtain rfl | htwo := hslash hc
    · obtain rfl : cs = [] := (List.cons.inj (hs.symm.trans (by decide : _ = ['/']))).2
      rw [List.nil_append] at he
      exact hcomment rfl d (by rw [he]; rfl) hd
    · obtain rfl : cs = ['='] := (List.cons.inj (hs.symm.trans htwo)).2
      obtain rfl : '=' = d := (List.cons.inj he).1
      exact absurd hd (by decide)
  unfold step
  rw [if_neg (by simp [hspace]), if_neg (by simp [hdigit]), if_neg (by simp [hword]), if_neg hquote]
  split
  · next he => exact (hnone rfl (by decide) he).elim
  · next he => exact (hnone rfl (by decide) he).elim
  · exact hsymbol

theorem step_symbol {s : Symbol} {c : Char} {cs rest : List Char} (hs : s.spelling.toList = c :: cs)
    (hr : ∀ d ∈ rest.head?, d ∉ s.runsOn) :
    step c (cs ++ rest) = ⟨.token (.symbol s), c :: cs, rest⟩ := by
  refine step_symbol_of_longest hs ?_ ?_
  · rw [← List.cons_append, ← hs]
    exact Symbol.longest_append hr
  · rintro rfl d hd hmem
    exact hr d hd (List.mem_append_right _ hmem)

theorem word?_toInt (n : Int64) : Number.word? n.toInt = some n := by
  rw [Number.word?, if_pos ⟨n.le_toInt, n.toInt_lt⟩, Int64.ofInt_toInt]

theorem integerPiece_repr {n : Int64} (h : 0 ≤ n.toInt) :
    (∀ d ∈ n.toInt.repr.toList, d.isDigit) ∧ n.toInt.repr.toList ≠ [] ∧
      integerPiece n.toInt.repr.toList = .token (.integer n) := by
  obtain ⟨k, hk⟩ := Int.eq_ofNat_of_zero_le h
  have hlist : n.toInt.repr.toList = Nat.toDigits 10 k := by
    rw [hk]
    exact Nat.toList_repr
  have hvalue : digitsValue (Nat.toDigits 10 k) = k :=
    Nat.ofDigitChars_toDigits (by decide) (by decide)
  rw [hlist]
  refine ⟨fun d hd => Nat.isDigit_of_mem_toDigits (by decide) (by decide) hd,
    Nat.toDigits_ne_nil, ?_⟩
  rw [integerPiece_eq, hvalue, ← hk, word?_toInt]
  rfl

theorem integerPiece_cases (whole : List Char) :
    (∃ n, integerPiece whole = .token (.integer n)) ∨ integerPiece whole = .fault .integerTooLarge := by
  rw [integerPiece_eq]
  cases Number.word? (digitsValue whole) with
  | none => exact .inr rfl
  | some n => exact .inl ⟨n, rfl⟩

theorem number_piece (text : List Char) :
    (∃ n, (number text).piece = .token (.integer n)) ∨ (∃ x, (number text).piece = .token (.real x)) ∨
      ∃ cause, (number text).piece = .fault cause := by
  have whole (digits : List Char) : (∃ n, integerPiece digits = .token (.integer n)) ∨
      (∃ x, integerPiece digits = .token (.real x)) ∨ ∃ cause, integerPiece digits = .fault cause :=
    (integerPiece_cases digits).imp_right fun h => .inr ⟨_, h⟩
  simp only [number]
  split
  · split
    · simp only
      exact whole _
    · exact .inr (.inl ⟨_, rfl⟩)
  · simp only
    exact whole _

theorem longest_isSome (s : Symbol) (text : List Char) :
    (Symbol.longest? (s.spelling.toList ++ text)).isSome := by
  rw [Symbol.longest?, Option.isSome_map, List.find?_isSome]
  exact ⟨_, List.mem_map_of_mem s.mem_byLength, by simp⟩

theorem symbol_piece {c : Char} {text : List Char} (h : (Symbol.longest? (c :: text)).isSome) :
    ∃ s, (symbol c text).piece = .token (.symbol s) := by
  obtain ⟨s, hs⟩ := Option.isSome_iff_exists.mp h
  exact ⟨s, by rw [symbol, hs]⟩

theorem ofWord_ne_real {w : String} (x : Float) : Token.ofWord w ≠ .real x := by
  unfold Token.ofWord
  split
  · exact nofun
  split
  · exact nofun
  split <;> exact nofun

theorem step_piece {c : Char} (h : writesFloat c) (text : List Char) :
    (step c text).piece ≠ .gap ∧
      ∀ x, (step c text).piece = .token (.real x) → c.isDigit := by
  by_cases hd : c.isDigit
  · unfold step
    rw [if_neg (by simp [isSpace_of_isDigit hd]), if_pos hd]
    refine ⟨?_, fun _ _ => hd⟩
    intro hgap
    obtain ⟨n, h⟩ | ⟨x, h⟩ | ⟨cause, h⟩ := number_piece (c :: text)
    all_goals
      rw [h] at hgap
      cases hgap
  by_cases hw : startsWord c
  · unfold step
    rw [if_neg (by simp [isSpace_of_startsWord hw]), if_neg hd, if_pos hw]
    refine ⟨?_, fun x hx => absurd (Piece.token.inj hx) (ofWord_ne_real x)⟩
    intro hgap
    cases hgap
  have hc : c = '.' ∨ c = '-' := by simpa [writesFloat, hd, hw] using h
  obtain ⟨s, hs⟩ : ∃ s, (step c text).piece = .token (.symbol s) := by
    obtain rfl | rfl := hc
    · exact symbol_piece (longest_isSome .dot text)
    · exact symbol_piece (longest_isSome .minus text)
  rw [hs]
  constructor
  · intro hgap
    cases hgap
  · intro x hx
    cases hx

theorem lexemes_cons (line : Nat) (c : Char) (tail : List Char) : lexemes line (c :: tail) =
    match (step c tail).piece with
    | .token token => (⟨token, line + breaks (step c tail).covered⟩ :: ·) <$>
        lexemes (line + breaks (step c tail).covered) (step c tail).rest
    | .gap => lexemes (line + breaks (step c tail).covered) (step c tail).rest
    | .fault cause => .error ⟨cause, line⟩ :=
  lexemes.eq_def line (c :: tail)

theorem lexemes_space (line : Nat) (rest : List Char) :
    lexemes line (' ' :: rest) = lexemes line rest := by
  rw [lexemes_cons]
  rfl

theorem eq_nil_of_lexemes {line : Nat} {text : List Char} (hw : ∀ c ∈ text, writesFloat c)
    (h : lexemes line text = .ok []) : text = [] := by
  cases text with
  | nil => rfl
  | cons c tail =>
    have hgap := (step_piece (hw c List.mem_cons_self) tail).1
    rw [lexemes_cons] at h
    generalize (step c tail).piece = piece at h hgap
    cases piece with
    | token t => cases hr : lexemes _ _ with
      | error e => rw [hr] at h; cases h
      | ok ts => rw [hr] at h; cases h
    | gap => exact absurd rfl hgap
    | fault cause => cases h

theorem number_real {text : List Char} {x : Float} (h : (number text).piece = .token (.real x)) :
    ∃ fraction, (number text).covered = text.takeWhile Char.isDigit ++ '.' :: fraction ∧
      (∀ d ∈ fraction, d.isDigit) ∧ fraction ≠ [] ∧
      realPiece (text.takeWhile Char.isDigit) fraction = .token (.real x) := by
  have whole (digits : List Char) : integerPiece digits ≠ .token (.real x) := by
    obtain ⟨n, hn⟩ | hn := integerPiece_cases digits <;> rw [hn] <;> exact nofun
  simp only [number] at h ⊢
  split at h
  · next tail _ =>
    split at h
    · simp only at h
      exact absurd h (whole _)
    · next hne =>
      rw [if_neg hne]
      exact ⟨_, rfl, fun d hd => List.all_eq_true.mp List.all_takeWhile d hd, by simpa using hne, h⟩
  · simp only at h
    exact absurd h (whole _)

theorem step_of_single {line line' : Nat} {c : Char} {tail : List Char} {t : Token}
    (hw : ∀ d ∈ c :: tail, writesFloat d) (h : lexemes line (c :: tail) = .ok [⟨t, line'⟩]) :
    (step c tail).piece = .token t ∧ (step c tail).rest = [] := by
  have hgap := (step_piece (hw c List.mem_cons_self) tail).1
  have hcuts := (step_cuts c tail).1
  rw [lexemes_cons] at h
  cases hp : (step c tail).piece with
  | gap => exact absurd hp hgap
  | fault cause =>
    rw [hp] at h
    cases h
  | token t' =>
    rw [hp] at h
    dsimp only at h
    cases hr : lexemes (line + breaks (step c tail).covered) (step c tail).rest with
    | error e =>
      rw [hr] at h
      cases h
    | ok ts =>
      rw [hr] at h
      obtain ⟨ht, rfl⟩ := List.cons.inj (Except.ok.inj h)
      -- Nothing in the rest could be skipped, so it is empty.
      have hrest : (step c tail).rest = [] := by
        refine eq_nil_of_lexemes (fun d hd => hw d ?_) hr
        rw [← hcuts]
        exact List.mem_append_right _ hd
      exact ⟨congrArg Piece.token (congrArg Lexeme.token ht), hrest⟩

theorem legible_real {x : Float} (h : (Token.real x).Legible) :
    ∃ c cs fraction, (Number.Style.literal.write x).toList = c :: cs ++ '.' :: fraction ∧
      (∀ d ∈ c :: cs, d.isDigit) ∧ (∀ d ∈ fraction, d.isDigit) ∧ fraction ≠ [] ∧
      realPiece (c :: cs) fraction = .token (.real x) := by
  have hw := writesFloat_write x
  change lexemes 1 (Number.Style.literal.write x).toList = _ at h
  generalize (Number.Style.literal.write x).toList = text at h hw
  cases text with
  | nil =>
    rw [lexemes] at h
    cases h
  | cons c tail =>
    obtain ⟨hp, hrest⟩ := step_of_single hw h
    have hcuts := (step_cuts c tail).1
    have hdigit := (step_piece (hw c List.mem_cons_self) tail).2 x hp
    have hstep : step c tail = number (c :: tail) := by
      unfold step
      rw [if_neg (by simp [isSpace_of_isDigit hdigit]), if_pos hdigit]
    rw [hstep] at hp hcuts hrest
    obtain ⟨fraction, hcovered, hf, hne, hpiece⟩ := number_real hp
    rw [hrest, List.append_nil, hcovered, List.takeWhile_cons_of_pos hdigit] at hcuts
    rw [List.takeWhile_cons_of_pos hdigit] at hpiece
    refine ⟨c, _, fraction, hcuts.symm, fun d hd => ?_, hf, hne, hpiece⟩
    rw [← List.takeWhile_cons_of_pos hdigit] at hd
    exact List.all_eq_true.mp List.all_takeWhile d hd

theorem isWord_keyword (k : Keyword) : (Token.keyword k).IsWord := by
  cases k <;> exact ⟨_, _, rfl, by decide, List.all_eq_true.mp rfl, by rfl⟩

theorem isWord_boolean (b : Bool) : (Token.boolean b).IsWord := by
  cases b <;> exact ⟨_, _, rfl, by decide, List.all_eq_true.mp rfl, by rfl⟩

theorem step_isWord {t : Token} {rest : List Char} (ht : t.IsWord)
    (hr : ∀ c ∈ rest.head?, continuesWord c = false) :
    ∃ c cs, t.spelling.toList = c :: cs ∧ step c (cs ++ rest) = ⟨.token t, c :: cs, rest⟩ := by
  obtain ⟨c, cs, hs, hc, hcs, hw⟩ := ht
  refine ⟨c, cs, hs, ?_⟩
  rw [step_word hc hcs hr, ← hs, String.ofList_toList, hw]

theorem step_token {t : Token} {rest : List Char} (ht : t.Legible) (hr : t.Ends rest) :
    ∃ c cs, t.spelling.toList = c :: cs ∧ step c (cs ++ rest) = ⟨.token t, c :: cs, rest⟩ := by
  cases t with
  | name s => exact step_isWord ht hr
  | keyword k => exact step_isWord (isWord_keyword k) hr
  | boolean b => exact step_isWord (isWord_boolean b) hr
  | integer n =>
    obtain ⟨hdigits, hne, hpiece⟩ := integerPiece_repr ht
    change ∃ c cs, n.toInt.repr.toList = _ ∧ _
    generalize n.toInt.repr.toList = digits at hdigits hne hpiece
    cases digits with
    | nil => exact absurd rfl hne
    | cons c cs => exact ⟨c, cs, rfl, by rw [step_integer hdigits hr, hpiece]⟩
  | real x =>
    obtain ⟨c, cs, fraction, hs, hc, hf, hne, hpiece⟩ := legible_real ht
    refine ⟨c, cs ++ '.' :: fraction, hs, ?_⟩
    rw [step_real hc hf hne hr, hpiece, List.cons_append]
  | text s =>
    refine ⟨'\'', s.toList ++ ['\''], by simp [Token.spelling], ?_⟩
    rw [List.append_assoc, List.singleton_append, step_quoted (.inr rfl) ht, String.ofList_toList]
    rfl
  | symbol s =>
    cases hs : s.spelling.toList with
    | nil => exact absurd hs (by cases s <;> decide)
    | cons c cs => exact ⟨c, cs, hs, step_symbol hs hr⟩

theorem lexemes_token {t : Token} {rest : List Char} (ht : t.Legible) (hr : t.Ends rest) (line : Nat) :
    lexemes line (t.spelling.toList ++ rest) =
      (⟨t, line + breaks t.spelling.toList⟩ :: ·) <$>
        lexemes (line + breaks t.spelling.toList) rest := by
  obtain ⟨c, cs, hs, hstep⟩ := step_token ht hr
  rw [hs, List.cons_append, lexemes_cons, hstep]

theorem ofWord_eq_name {w s : String} (h : Token.ofWord w = .name s) : w = s := by
  unfold Token.ofWord at h
  split at h
  · cases h
  split at h
  · cases h
  split at h
  · cases h
  · exact Token.name.inj h

theorem step_name {c : Char} {text : List Char} {s : String}
    (h : (step c text).piece = .token (.name s)) : (Token.name s).IsWord := by
  unfold step at h
  split at h
  · cases h
  split at h
  · obtain ⟨n, hn⟩ | ⟨x, hn⟩ | ⟨cause, hn⟩ := number_piece (c :: text) <;> rw [hn] at h <;> cases h
  split at h
  · next hc =>
    have hw : continuesWord c := by simp [continuesWord, hc]
    have hname := Piece.token.inj h
    obtain rfl := ofWord_eq_name hname
    rw [List.takeWhile_cons_of_pos hw] at hname ⊢
    exact ⟨c, _, String.toList_ofList, hc,
      fun d hd => List.all_eq_true.mp List.all_takeWhile d hd, hname⟩
  split at h
  · unfold quoted at h
    dsimp only at h
    split at h <;> cases h
  split at h
  · cases h
  · cases h
  · unfold symbol at h
    split at h <;> cases h

theorem tokens_legible {source : String} {ts : List Lexeme} (h : tokens source = .ok ts)
    (hreal : ∀ l ∈ ts, ∀ x, l.token = .real x → (Token.real x).Legible)
    (htext : ∀ l ∈ ts, ∀ s, l.token ≠ .text s) : ∀ l ∈ ts, l.token.Legible := by
  intro l hl
  have hscanned := tokens_scanned h l hl
  have hname := lexemes_forall (P := fun t => ∀ s, t = .name s → (Token.name s).IsWord)
    (fun _ _ t ht s hs => step_name (hs ▸ ht)) _ _ _ h l hl
  obtain ⟨t, line⟩ := l
  cases t with
  | name s => exact hname s rfl
  | integer n => exact hscanned
  | real x => exact hreal _ hl x rfl
  | text s => exact absurd rfl (htext _ hl s)
  | boolean | keyword | symbol => trivial

end Scan

end Scriptlet
