import Scriptlet.Proofs.SourcePartition

/-!
The lexical grammar leaves no choice: where a piece stands the scanner takes it, so a source is cut in
one way only.
-/

namespace Scriptlet.Scan

section

variable {c d : Char} {digits fraction cs text rest : List Char}

theorem Longest.not_pattern (h : Longest text (d :: rest)) : ¬ Pattern (text ++ [d]) := by
  intro hp
  have hlength := h.2 _ hp ⟨rest, by simp⟩
  rw [List.length_append, List.length_singleton] at hlength
  omega

theorem Longest.stops {p : Char → Bool} (h : Longest text rest)
    (hp : ∀ d, p d → Pattern (text ++ [d])) : ∀ d ∈ rest.head?, p d = false := by
  intro d hd
  obtain ⟨tail, rfl⟩ := List.head?_eq_some_iff.mp hd
  rw [Bool.eq_false_iff]
  exact fun hpd => h.not_pattern (hp d hpd)

theorem Longest.stops_digits (h : Longest digits rest) (hd : ∀ d ∈ digits, d.isDigit) :
    ∀ d ∈ rest.head?, d.isDigit = false ∧ (d = '.' → ∀ d' ∈ rest.tail.head?, d'.isDigit = false) := by
  have hne := h.1.ne_nil
  have hstop : ∀ d ∈ rest.head?, d.isDigit = false :=
    h.stops fun d hdigit => .integer (by simp) (List.forall_mem_append.mpr ⟨hd, by simpa using hdigit⟩)
  intro d hrest
  refine ⟨hstop d hrest, ?_⟩
  rintro rfl d' hd'
  obtain ⟨tail, rfl⟩ := List.head?_eq_some_iff.mp hrest
  obtain ⟨tail, rfl⟩ := List.head?_eq_some_iff.mp hd'
  rw [Bool.eq_false_iff]
  intro hdigit
  have hreal : Pattern (digits ++ '.' :: [d']) := .real hne hd (by simp) (by simpa using hdigit)
  have hlength := h.2 _ hreal ⟨tail, by simp⟩
  simp at hlength

theorem longest?_eq_some {s : Symbol} (hstart : s.spelling.toList <+: text)
    (hlongest : ∀ t : Symbol, t.spelling.toList <+: text → t.spelling.length ≤ s.spelling.length) :
    Symbol.longest? text = some s := by
  obtain ⟨tail, rfl⟩ := hstart
  obtain ⟨t, ht⟩ := Option.isSome_iff_exists.mp (longest_isSome s tail)
  obtain ⟨hstart, hle⟩ := of_longest? ht
  have hlength : t.spelling.length = s.spelling.length :=
    Nat.le_antisymm (hlongest t hstart) (hle s (List.prefix_append ..))
  have heq : t.spelling.toList = s.spelling.toList := by
    refine (List.prefix_of_prefix_length_le hstart (List.prefix_append ..) ?_).eq_of_length ?_
    · simp only [String.length_toList, hlength, Nat.le_refl]
    · simp only [String.length_toList, hlength]
  rw [ht, Symbol.spelling_inj (String.toList_injective heq)]

theorem Longest.no_comment {s : Symbol} (h : Longest s.spelling.toList rest) (hs : s = .slash) :
    ∀ d ∈ rest.head?, d ∉ ['/', '*'] := by
  subst hs
  intro d hd hmem
  obtain ⟨tail, rfl⟩ := List.head?_eq_some_iff.mp hd
  rcases List.mem_cons.mp hmem with rfl | hmem
  · have hline : Pattern ['/', '/'] := .lineComment (by simp)
    exact h.not_pattern hline
  · obtain rfl := List.mem_singleton.mp hmem
    exact h.not_pattern .blockComment

theorem integerPiece_fits {n : Int64} (h : n.toInt = digitsValue digits) :
    integerPiece digits = .token (.integer n) := by
  rw [integerPiece_eq, ← h, word?_toInt]
  rfl

theorem integerPiece_large (h : 2 ^ 63 ≤ digitsValue digits) :
    integerPiece digits = .fault .integerTooLarge := by
  rw [integerPiece_eq, Number.word?, if_neg (by unfold Number.wordBound; omega)]
  rfl

theorem blockComment_cons (h : ¬ ['*', '/'] <+: c :: text) :
    blockComment (c :: text) = (c :: (blockComment text).1, (blockComment text).2) := by
  rw [blockComment.eq_2]
  rintro tail rfl rfl
  exact h ⟨tail, rfl⟩

theorem blockComment_closed (h : ¬ ['*', '/'] <:+: cs ++ ['*']) :
    blockComment (cs ++ ['*', '/'] ++ rest) = (cs ++ ['*', '/'], rest) := by
  induction cs with
  | nil => rfl
  | cons c cs ih =>
    rw [List.cons_append, List.infix_cons_iff, not_or] at h
    have hstart : ¬ ['*', '/'] <+: c :: (cs ++ ['*', '/'] ++ rest) := by
      intro hlong
      have hshort : c :: (cs ++ ['*']) <+: c :: (cs ++ ['*', '/'] ++ rest) := ⟨'/' :: rest, by simp⟩
      exact h.1 (List.prefix_of_prefix_length_le hlong hshort (by simp))
    rw [List.cons_append, List.cons_append, blockComment_cons hstart, ih h.2]

theorem blockComment_open (h : ¬ ['*', '/'] <:+: cs) : blockComment cs = (cs, []) := by
  induction cs with
  | nil => rfl
  | cons c cs ih =>
    rw [List.infix_cons_iff, not_or] at h
    rw [blockComment_cons h.1, ih h.2]

theorem step_stray (h : ∀ cs, ¬ Pattern (c :: cs)) : step c text = ⟨.gap, [c], text⟩ := by
  have hspace : ¬ isSpace c := fun hc => h [] (.space hc)
  have hdigit : ¬ c.isDigit := fun hc => h [] (.integer (by simp) (by simpa using hc))
  have hword : ¬ startsWord c := fun hc => h [] (.word hc (by simp))
  have hquote : ¬ (c = '"' ∨ c = '\'') := fun hc => h [] (.quote hc)
  have hslash : c ≠ '/' := fun hc => h [] (hc ▸ .symbol .slash)
  have hnone : Symbol.longest? (c :: text) = none := by
    rw [Option.eq_none_iff_forall_not_mem]
    intro s hs
    have hp := Pattern.symbol s
    obtain ⟨cs, hcs⟩ := hp.head_eq (of_longest? hs).1
    exact h cs (hcs ▸ hp)
  unfold step
  rw [if_neg hspace, if_neg hdigit, if_neg hword, if_neg hquote]
  split
  · exact absurd rfl hslash
  · exact absurd rfl hslash
  · rw [symbol, hnone]
    rfl

theorem Reads.step {t : Token} (h : Reads rest text t) :
    ∃ c cs, text = c :: cs ∧ Scan.step c (cs ++ rest) = ⟨.token t, text, rest⟩ := by
  cases h with
  | integer hd h hn =>
    obtain ⟨c, cs, rfl⟩ := List.exists_cons_of_ne_nil h.1.ne_nil
    exact ⟨c, cs, rfl, by rw [step_integer hd (h.stops_digits hd), integerPiece_fits hn]⟩
  | @real whole fraction hwhole hw hfraction hf h =>
    obtain ⟨c, cs, rfl⟩ := List.exists_cons_of_ne_nil hwhole
    have hr : ∀ d ∈ rest.head?, d.isDigit = false := by
      refine h.stops fun d hd => ?_
      rw [List.append_assoc, List.cons_append]
      exact .real hwhole hw (by simp) (List.forall_mem_append.mpr ⟨hf, by simpa using hd⟩)
    exact ⟨c, cs ++ '.' :: fraction, rfl, step_real hw hf hfraction hr⟩
  | @word c cs hc h =>
    have hcs : ∀ d ∈ cs, continuesWord d := fun d hd => h.1.of_word hc d (.tail _ hd)
    have hr := h.stops fun d hd => .word hc (List.forall_mem_append.mpr ⟨hcs, by simpa using hd⟩)
    exact ⟨c, cs, rfl, step_word hc hcs hr⟩
  | @symbol s h =>
    obtain ⟨c, cs, hs⟩ := List.exists_cons_of_ne_nil h.1.ne_nil
    refine ⟨c, cs, hs, ?_⟩
    rw [hs]
    refine step_symbol_of_longest hs ?_ h.no_comment
    rw [← List.cons_append, ← hs]
    refine longest?_eq_some (List.prefix_append ..) fun t ht => ?_
    simpa only [String.length_toList] using h.2 _ (.symbol t) ht
  | @text q contents hq h =>
    refine ⟨q, contents ++ [q], rfl, ?_⟩
    rw [List.append_assoc, List.singleton_append, step_quoted hq h]

theorem Skips.step (h : Skips rest text) :
    ∃ c cs, text = c :: cs ∧ Scan.step c (cs ++ rest) = ⟨.gap, text, rest⟩ := by
  cases h with
  | @space c hc => exact ⟨c, [], rfl, if_pos hc⟩
  | @lineComment cs h hrest =>
    have hr : ∀ d ∈ rest.head?, decide (d ≠ '\n') = false := fun d hd => by simp [hrest d hd]
    refine ⟨'/', '/' :: cs, rfl, ?_⟩
    change gap ('/' :: '/' :: (cs ++ rest).takeWhile _) ((cs ++ rest).dropWhile _) = _
    rw [takeWhile_exact (forall_ne h) hr, dropWhile_exact (forall_ne h) hr]
    rfl
  | @blockComment cs h =>
    refine ⟨'/', '*' :: cs ++ ['*', '/'], rfl, ?_⟩
    change gap ('/' :: '*' :: (Scan.blockComment (cs ++ ['*', '/'] ++ rest)).1)
      (Scan.blockComment (cs ++ ['*', '/'] ++ rest)).2 = _
    rw [blockComment_closed h]
    rfl
  | @openComment cs h hrest =>
    subst hrest
    refine ⟨'/', '*' :: cs, rfl, ?_⟩
    change gap ('/' :: '*' :: (Scan.blockComment (cs ++ [])).1) (Scan.blockComment (cs ++ [])).2 = _
    rw [List.append_nil, blockComment_open h]
    rfl
  | @stray c h => exact ⟨c, [], rfl, step_stray h⟩

theorem Offends.step {cause : SyntaxError.Cause} (h : Offends rest text cause) :
    ∃ c cs, text = c :: cs ∧ Scan.step c (cs ++ rest) = ⟨.fault cause, text, rest⟩ := by
  cases h with
  | @quote q cs hq h hrest =>
    subst hrest
    have hr : ∀ d ∈ ([] : List Char).head?, decide (d ≠ q) = false := by simp
    refine ⟨q, cs, rfl, ?_⟩
    rw [step_quote hq, quoted, takeWhile_exact (forall_ne h) hr, dropWhile_exact (forall_ne h) hr]
  | digits hd h hvalue =>
    obtain ⟨c, cs, rfl⟩ := List.exists_cons_of_ne_nil h.1.ne_nil
    exact ⟨c, cs, rfl, by rw [step_integer hd (h.stops_digits hd), integerPiece_large hvalue]⟩

end

section

variable {before rest a : List Char} {parts : List Part}

theorem Gap.run (h : Gap rest a) (line : Nat) :
    lexemes line (a ++ rest) = lexemes (line + breaks a) rest := by
  induction h generalizing line with
  | nil => rfl
  | @cons a b ha hb ih =>
    obtain ⟨c, cs, rfl, hstep⟩ := ha.step
    rw [List.append_assoc, List.cons_append, lexemes_cons, hstep]
    dsimp only
    rw [ih, breaks_append, Nat.add_assoc]

theorem Fits.run (h : Fits rest before parts) :
    lexemes (1 + breaks before) (written parts ++ rest) =
      (parts.map Part.lexeme ++ ·) <$> lexemes (1 + breaks (before ++ written parts)) rest := by
  induction h with
  | @nil before =>
    change lexemes _ rest = ([] ++ ·) <$> lexemes (1 + breaks (before ++ [])) rest
    rw [List.append_nil]
    cases lexemes (1 + breaks before) rest <;> rfl
  | @cons before p ps hgap hreads hline hps ih =>
    obtain ⟨c, cs, htext, hstep⟩ := hreads.step
    -- After the gap one step takes the whole text of the lexeme, so the scan goes on behind the part.
    have htoken : lexemes (1 + breaks before + breaks p.gap) (p.text ++ (written ps ++ rest)) =
        (p.lexeme :: ·) <$> lexemes p.lexeme.line (written ps ++ rest) := by
      have hnext : p.lexeme.line = 1 + breaks before + breaks p.gap + breaks (c :: cs) := by
        rw [hline, Part.source, breaks_append, breaks_append, htext, Nat.add_assoc, Nat.add_assoc]
      rw [htext] at hstep ⊢
      rw [List.cons_append, lexemes_cons, hstep]
      dsimp only
      rw [← hnext]
    have hbefore : before ++ written (p :: ps) = before ++ p.source ++ written ps :=
      (List.append_assoc ..).symm
    have hwritten : written (p :: ps) ++ rest = p.gap ++ (p.text ++ (written ps ++ rest)) := by
      rw [written_cons, Part.source, List.append_assoc, List.append_assoc]
    rw [hbefore, hwritten, hgap.run, htoken, hline, ih]
    cases lexemes (1 + breaks (before ++ p.source ++ written ps)) rest <;> rfl

theorem Partitioned.run {text : List Char} {r : Except SyntaxError (List Lexeme)}
    (h : Partitioned before text r) : lexemes (1 + breaks before) text = r := by
  cases h with
  | tokens h hts =>
    obtain ⟨rfl, hparts, hgap⟩ := h
    rw [hparts.run, hgap.run, lexemes, ← hts]
    exact congrArg Except.ok (List.append_nil _)
  | error h ho hline =>
    obtain ⟨rfl, hparts, hgap⟩ := h
    obtain ⟨c, cs, rfl, hstep⟩ := ho.step
    rw [← List.append_assoc, breaks_append, ← Nat.add_assoc] at hline
    rw [hparts.run, hgap.run, List.cons_append, lexemes_cons, hstep, hline]
    rfl

end

/-- A source is cut into longest lexemes and gaps, and no token or error has a wrong line. There is no
other way to cut it so. -/
theorem tokens_partition (source : String) (r : Except SyntaxError (List Lexeme)) :
    Partitioned [] source.toList r ↔ r = tokens source := by
  constructor
  · exact fun h => h.run.symm
  · rintro rfl
    exact lexemes_partitioned 1 source.toList [] rfl

end Scriptlet.Scan
