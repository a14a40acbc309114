import Windbreak.Core.JsonDumps

/-!
# Lines of text

A log keeps one canonical JSON text a line.  Canonical text is printable ASCII, so whatever it says
it never runs over the end of its line.

* `splitLines` — the lines of a text, at any of the characters that end one.
* **`splitLines_unlines`** — the lines that were written are the lines that are read.
-/

namespace TextLines

/-- The characters that end a line. -/
def isLineBreak (c : Char) : Bool :=
  (10 ≤ c.toNat && c.toNat ≤ 13) || (28 ≤ c.toNat && c.toNat ≤ 30) || c.toNat = 133 ||
    c.toNat = 8232 || c.toNat = 8233

/-- The characters that a blank line may hold. -/
def isBlankChar (c : Char) : Bool :=
  (9 ≤ c.toNat && c.toNat ≤ 13) || (28 ≤ c.toNat && c.toNat ≤ 32) || c.toNat = 133 ||
    c.toNat = 160 || c.toNat = 5760 || (8192 ≤ c.toNat && c.toNat ≤ 8202) || c.toNat = 8232 ||
    c.toNat = 8233 || c.toNat = 8239 || c.toNat = 8287 || c.toNat = 12288

def isBlank (line : List Char) : Bool := line.all isBlankChar

/-- The lines of a text behind the characters of a line already begun. -/
def splitAfter (line : List Char) : List Char → List (List Char)
  | [] => if line = [] then [] else [line]
  | '\r' :: '\n' :: rest => line :: splitAfter [] rest
  | c :: rest => if isLineBreak c then line :: splitAfter [] rest else splitAfter (line ++ [c]) rest

/-- The lines of a text. -/
def splitLines (text : List Char) : List (List Char) := splitAfter [] text

/-- Lines written one after another, each with its end. -/
def unlines (lines : List (List Char)) : List Char := lines.flatMap fun line => line ++ ['\n']

/-- A text without line ends. -/
def OneLine (text : List Char) : Prop := ∀ c ∈ text, isLineBreak c = false

theorem unlines_concat (lines : List (List Char)) (line : List Char) :
    unlines (lines ++ [line]) = unlines lines ++ line ++ ['\n'] := by
  simp [unlines]

theorem splitAfter_cons {line rest : List Char} {c : Char} (h : isLineBreak c = false) :
    splitAfter line (c :: rest) = splitAfter (line ++ [c]) rest := by
  rw [splitAfter, if_neg (Bool.eq_false_iff.mp h)]
  rintro others rfl -
  exact absurd h (by decide)

theorem splitAfter_newline (line rest : List Char) :
    splitAfter line ('\n' :: rest) = line :: splitAfter [] rest := by
  rw [splitAfter]
  · rfl
  · exact fun others hreturn => absurd hreturn (by decide)

/-- A line is cut off where it ends. -/
theorem splitAfter_line {text : List Char} (h : OneLine text) (line rest : List Char) :
    splitAfter line (text ++ '\n' :: rest) = (line ++ text) :: splitAfter [] rest := by
  induction text generalizing line with
  | nil => rw [List.nil_append, List.append_nil, splitAfter_newline]
  | cons c text ih =>
      obtain ⟨hc, htext⟩ := List.forall_mem_cons.mp h
      rw [List.cons_append, splitAfter_cons hc, ih htext, List.append_assoc, List.singleton_append]

/-- **The lines written are the lines read.** -/
theorem splitLines_unlines {lines : List (List Char)} (h : ∀ line ∈ lines, OneLine line) :
    splitLines (unlines lines) = lines := by
  induction lines with
  | nil => rfl
  | cons line lines ih =>
      obtain ⟨hline, hlines⟩ := List.forall_mem_cons.mp h
      have htext : unlines (line :: lines) = line ++ '\n' :: unlines lines := by simp [unlines]
      have hcut := splitAfter_line hline [] (unlines lines)
      rw [List.nil_append] at hcut
      rw [splitLines, htext, hcut]
      exact congrArg (line :: ·) (ih hlines)

/-! ## Canonical text is one line -/

/-- A printable ASCII character. -/
def Printable (c : Char) : Prop := 32 ≤ c.toNat ∧ c.toNat ≤ 126

theorem Printable.not_break {c : Char} (h : Printable c) : isLineBreak c = false := by
  obtain ⟨hlow, hhigh⟩ := h
  rw [Bool.eq_false_iff]
  intro hbreak
  simp only [isLineBreak, Bool.or_eq_true, Bool.and_eq_true, decide_eq_true_eq] at hbreak
  omega

instance (c : Char) : Decidable (Printable c) := inferInstanceAs (Decidable (_ ∧ _))

theorem printable_of_all {cs : List Char} (h : (cs.all fun c => decide (Printable c)) = true) :
    ∀ c ∈ cs, Printable c :=
  fun c hc => of_decide_eq_true (List.all_eq_true.mp h c hc)

theorem printable_hexDigit {n : ℕ} (h : n < 16) : Printable (Json.hexDigit n) := by
  have hall : ∀ m < 16, Printable (Json.hexDigit m) := by decide
  exact hall n h

theorem printable_unicodeEscape (n : ℕ) : ∀ c ∈ Json.unicodeEscape n, Printable c := by
  intro c hc
  simp only [Json.unicodeEscape, List.mem_cons, List.not_mem_nil, or_false] at hc
  rcases hc with rfl | rfl | rfl | rfl | rfl | rfl
  · decide
  · decide
  all_goals exact printable_hexDigit (Nat.mod_lt _ (by decide))

theorem printable_escapeCode (n : ℕ) : ∀ c ∈ JsonValue.escapeCode n, Printable c := by
  rcases JsonValue.escapeCode_cases n with ⟨e, hprints, -, -, -, htext⟩ | ⟨-, -, hprints, htext⟩ |
    ⟨-, htext⟩ | ⟨-, htext⟩
  · rw [htext]
    intro c hc
    simp only [List.mem_cons, List.not_mem_nil, or_false] at hc
    rcases hc with rfl | rfl
    · decide
    · exact hprints
  · rw [htext]
    intro c hc
    rw [List.mem_singleton.mp hc, Printable, JsonValue.toNat_ofNat_ascii hprints.2]
    exact hprints
  · rw [htext]
    exact printable_unicodeEscape n
  · rw [htext]
    intro c hc
    exact (List.mem_append.mp hc).elim (printable_unicodeEscape _ c) (printable_unicodeEscape _ c)

theorem printable_quoted (s : CodePoints) : ∀ c ∈ JsonValue.quoted s, Printable c := by
  intro c hc
  simp only [JsonValue.quoted, List.cons_append, List.mem_cons, List.mem_append, List.mem_flatMap,
    List.not_mem_nil, or_false] at hc
  rcases hc with rfl | ⟨n, -, hescaped⟩ | rfl
  · decide
  · exact printable_escapeCode n c hescaped
  · decide

theorem printable_decimal (i : ℤ) : ∀ c ∈ JsonValue.decimal i, Printable c := by
  have hdigits : ∀ c ∈ Nat.toDigits 10 i.natAbs, Printable c := by
    intro c hc
    have hdigit := Nat.isDigit_of_mem_toDigits (by decide) (by decide) hc
    simp only [Char.isDigit, Bool.and_eq_true, decide_eq_true_eq, ge_iff_le,
      UInt32.le_iff_toNat_le] at hdigit
    exact ⟨le_trans (by decide) hdigit.1, le_trans hdigit.2 (by decide)⟩
  intro c hc
  unfold JsonValue.decimal at hc
  split_ifs at hc
  · exact (List.mem_cons.mp hc).elim (fun h => h ▸ by decide) (hdigits c)
  · exact hdigits c hc

theorem printable_commaJoin {texts : List (List Char)}
    (h : ∀ text ∈ texts, ∀ c ∈ text, Printable c) : ∀ c ∈ JsonValue.commaJoin texts, Printable c := by
  induction texts with
  | nil => exact fun c hc => absurd hc List.not_mem_nil
  | cons text texts ih =>
      obtain ⟨htext, htexts⟩ := List.forall_mem_cons.mp h
      cases texts with
      | nil => exact htext
      | cons next others =>
          intro c hc
          rw [JsonValue.commaJoin_cons_cons, List.mem_append, List.mem_cons] at hc
          rcases hc with hc | rfl | hc
          · exact htext c hc
          · decide
          · exact ih htexts c hc

/-- The characters of canonical text are printable. -/
theorem printable_dumps {limits : JsonValue.Limits} {depth : ℕ} {v : JsonValue}
    (h : JsonValue.Fits limits depth v) : ∀ c ∈ JsonValue.dumps v, Printable c := by
  induction h with
  | null depth => exact printable_of_all (by decide)
  | bool depth b => cases b <;> exact printable_of_all (by decide)
  | int depth i _ => exact printable_decimal i
  | str depth s _ => exact printable_quoted s
  | arr depth items _ ih =>
      intro c hc
      simp only [JsonValue.dumps, JsonValue.dumpsItems_eq, List.cons_append, List.mem_cons,
        List.mem_append, List.not_mem_nil, or_false] at hc
      rcases hc with rfl | hc | rfl
      · decide
      · refine printable_commaJoin (fun text htext => ?_) c hc
        obtain ⟨v, hv, rfl⟩ := List.mem_map.mp htext
        exact ih v hv
      · decide
  | obj depth fields _ _ _ ih =>
      intro c hc
      simp only [JsonValue.dumps, JsonValue.dumpsFields_eq, JsonValue.sortKeys_map,
        List.cons_append, List.mem_cons, List.mem_append, List.not_mem_nil, or_false] at hc
      rcases hc with rfl | hc | rfl
      · decide
      · refine printable_commaJoin (fun text htext => ?_) c hc
        obtain ⟨rendered, hrendered, rfl⟩ := List.mem_map.mp htext
        obtain ⟨f, hf, rfl⟩ := List.mem_map.mp hrendered
        have hin : f ∈ fields := (JsonValue.sortKeys_perm fields).mem_iff.mp hf
        intro d hd
        rw [JsonValue.renderField, List.mem_append, List.mem_cons] at hd
        rcases hd with hd | rfl | hd
        · exact printable_quoted f.1 d hd
        · decide
        · exact ih f hin d hd
      · decide

/-- **Canonical text is one line.** -/
theorem oneLine_dumps {limits : JsonValue.Limits} {depth : ℕ} {v : JsonValue}
    (h : JsonValue.Fits limits depth v) : OneLine (JsonValue.dumps v) :=
  fun c hc => (printable_dumps h c hc).not_break

/-- Canonical text is not blank. -/
theorem dumps_not_blank {limits : JsonValue.Limits} {depth : ℕ} {v : JsonValue}
    (h : JsonValue.Fits limits depth v) : isBlank (JsonValue.dumps v) = false := by
  obtain ⟨c, cs, htext, hspace, -, -⟩ := JsonValue.dumps_opens v h.ne_float
  have hprints : Printable c := printable_dumps h c (htext ▸ .head _)
  have hne : c.toNat ≠ 32 := by
    intro hsame
    have hc : c = ' ' := Char.toNat_inj.mp hsame
    rw [hc] at hspace
    exact absurd hspace (by decide)
  have hblank : isBlankChar c = false := by
    obtain ⟨hlow, hhigh⟩ := hprints
    rw [Bool.eq_false_iff]
    intro hblank
    simp only [isBlankChar, Bool.or_eq_true, Bool.and_eq_true, decide_eq_true_eq] at hblank
    omega
  rw [isBlank, htext, List.all_cons, hblank, Bool.false_and]

end TextLines
