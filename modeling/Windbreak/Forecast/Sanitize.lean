import Windbreak.Core.Effects
import Windbreak.Core.TokenCuts
import Windbreak.Forecast.VisibleText

/-!
# Text that nobody vouches for

What a web page, a market or a model says is data.  It is cut down to its visible text, its
delimiters are taken out, a few words of it are quoted, and the quote is put into a labelled block.
Text that must not carry a delimiter or a tool call is screened.

* **`sanitizeContent`**, **`extractQuote`** — leave no delimiter behind (`delimiterFree_sanitized`).
* **`wrapBlock`** — a block; `wrapBlock_ok_iff` says what it takes.
* **`screenUntrustedText`**, **`screenSingleLineText`** — the screens.
-/

namespace Windbreak

open JsonValue TokenCuts

/-- The token that opens a block of data. -/
def dataBlockBegin : CodePoints := codes "<<<UNTRUSTED-DATA"

/-- The token that closes a block of data. -/
def dataBlockEnd : CodePoints := codes "<<<END-UNTRUSTED-DATA>>>"

/-- The most words of a quote. -/
def maxQuoteWords : ℤ := 25

/-- The lowest probability, in parts per million. -/
def minPpm : ℤ := 0

/-- The highest probability, in parts per million. -/
def maxPpm : ℤ := 1000000

/-- The most characters of a rationale. -/
def maxRationaleChars : ℕ := 2000

/-- What a vote response, or a text bound for a prompt, is refused for. -/
inductive ResponseFailure where
  | emptyResponse
  | delimiterForgery
  | toolCallLure
  | lineForgery
  | malformedVoteJson
  | nonIntegerProbability
  | probabilityOutOfRange
  | invalidRationale
  | unknownVoteKey
  deriving DecidableEq, Repr

/-- The JSON keys of a tool call. -/
def toolCallMarkers : List CodePoints :=
  [codes "\"tool\"", codes "\"tool_call\"", codes "\"function_call\""]

/-! ## Whitespace -/

/-- Does `str.split` split at this character? -/
def isPySpace (c : ℕ) : Bool :=
  (9 ≤ c && c ≤ 13) || (28 ≤ c && c ≤ 32) || c = 133 || c = 160 || c = 5760 ||
    (8192 ≤ c && c ≤ 8202) || c = 8232 || c = 8233 || c = 8239 || c = 8287 || c = 12288

/-- The words of a text. -/
def splitWords (text : CodePoints) : List CodePoints := words isPySpace text

/-- Words joined by single spaces. -/
def joinWords (some : List CodePoints) : CodePoints := [32].intercalate some

/-- Every run of whitespace made a single space. -/
def collapseWhitespace (text : CodePoints) : CodePoints := joinWords (splitWords text)

/-- A list up to a bound; a negative bound counts from the end. -/
def sliceTo {α : Type} (bound : ℤ) (xs : List α) : List α :=
  if 0 ≤ bound then xs.take bound.toNat else xs.take (xs.length - bound.natAbs)

/-! ## Sanitizing -/

/-- Every delimiter replaced by a space. -/
def neutralizeDelimiters (text : CodePoints) : CodePoints :=
  replaceAll dataBlockEnd [32] (replaceAll dataBlockBegin [32] text)

/-- A page reduced to its visible text, without delimiters.  `htmlEvents` is what the standard
library's parser reports of a page. -/
def sanitizeContent (lower : String → String) (htmlEvents : CodePoints → List HtmlEvent)
    (content : CodePoints) : CodePoints :=
  if 60 ∈ content then
    collapseWhitespace (neutralizeDelimiters
      (feedHtml lower .init (htmlEvents content)).visibleText)
  else collapseWhitespace content

/-- The first words of a sanitized text. -/
def extractQuote (sanitized : CodePoints) (maxWords : ℤ) : CodePoints :=
  joinWords (sliceTo maxWords (splitWords sanitized))

/-! ## Blocks -/

/-- Does a text contain a delimiter? -/
def containsDelimiter (text : CodePoints) : Bool :=
  decide (dataBlockBegin <:+: text) || decide (dataBlockEnd <:+: text)

/-- Why a block is not written. -/
inductive BlockError where
  | unsafeLabel (name : String) (value : CodePoints)
  | unsafeBody (name : String) (value : CodePoints)
  deriving DecidableEq, Repr

/-- Guard a value that goes into the quoted attribute of an opening line. -/
def requireBlockLabelSafe (name : String) (value : CodePoints) : Except BlockError Unit :=
  if containsDelimiter value = true ∨ 10 ∈ value ∨ 34 ∈ value then .error (.unsafeLabel name value)
  else .ok ()

/-- Guard a value that goes into the body of a block. -/
def requireBlockBodySafe (name : String) (value : CodePoints) : Except BlockError Unit :=
  if containsDelimiter value = true then .error (.unsafeBody name value) else .ok ()

/-- What stands between the two tokens of a block. -/
def blockInside (label : String) (labelValue body : CodePoints) : CodePoints :=
  32 :: (codes label ++ 61 :: 34 :: (labelValue ++ 34 :: (codes ">>>" ++ 10 :: (body ++ [10]))))

/-- Write a block: a labelled opening line, the body, and the closing token. -/
def wrapBlock (label : String) (labelValue : CodePoints) (bodyName : String) (body : CodePoints) :
    Except BlockError CodePoints := do
  requireBlockLabelSafe label labelValue
  requireBlockBodySafe bodyName body
  return dataBlockBegin ++ (blockInside label labelValue body ++ dataBlockEnd)

/-- A web quote in a block, under the URL it was fetched from. -/
def wrapDataBlock (url quote : CodePoints) : Except BlockError CodePoints :=
  wrapBlock "url" url "quote" quote

/-- A field of a market in a block, under its name. -/
def wrapFieldBlock (field : String) (value : CodePoints) : Except BlockError CodePoints :=
  wrapBlock "field" (codes field) "value" value

/-! ## Screens -/

/-- Screen a text for delimiters and tool calls. -/
def screenUntrustedText (text : CodePoints) : Option ResponseFailure :=
  if containsDelimiter text = true then some .delimiterForgery
  else if toolCallMarkers.any fun marker => decide (marker <:+: text) then some .toolCallLure
  else none

/-- Screen a text that is to stand on one line. -/
def screenSingleLineText (text : CodePoints) : Option ResponseFailure :=
  match screenUntrustedText text with
  | some failure => some failure
  | none => if 10 ∈ text ∨ 13 ∈ text then some .lineForgery else none

/-! ## What is left of the delimiters -/

/-- A text without delimiters. -/
def DelimiterFree (text : CodePoints) : Prop := Bare dataBlockBegin dataBlockEnd text

theorem containsDelimiter_eq_false_iff {text : CodePoints} :
    containsDelimiter text = false ↔ DelimiterFree text := by
  simp [containsDelimiter, DelimiterFree, Bare]

theorem dataBlockBegin_ne_nil : dataBlockBegin ≠ [] := by decide

theorem dataBlockEnd_ne_nil : dataBlockEnd ≠ [] := by decide

theorem space_not_mem_begin : 32 ∉ dataBlockBegin := by decide

theorem space_not_mem_end : 32 ∉ dataBlockEnd := by decide

theorem delimiterFree_neutralized (text : CodePoints) :
    DelimiterFree (neutralizeDelimiters text) := by
  constructor
  · refine not_infix_replaceAll dataBlockBegin_ne_nil space_not_mem_begin (.inr ?_)
    exact not_infix_replaceAll dataBlockBegin_ne_nil space_not_mem_begin (.inl rfl)
  · exact not_infix_replaceAll dataBlockEnd_ne_nil space_not_mem_end (.inl rfl)

/-- Some words of a text without delimiters have none. -/
theorem DelimiterFree.words {text : CodePoints} (h : DelimiterFree text) {some : List CodePoints}
    (hsome : ∀ word ∈ some, word ∈ splitWords text) : DelimiterFree (joinWords some) :=
  ⟨not_infix_of_words dataBlockBegin_ne_nil space_not_mem_begin h.1 hsome,
    not_infix_of_words dataBlockEnd_ne_nil space_not_mem_end h.2 hsome⟩

theorem delimiterFree_collapsed {text : CodePoints} (h : DelimiterFree text) :
    DelimiterFree (collapseWhitespace text) := h.words fun _ hword => hword

theorem mem_of_mem_sliceTo {α : Type} {bound : ℤ} {xs : List α} {x : α} (h : x ∈ sliceTo bound xs) :
    x ∈ xs := by
  unfold sliceTo at h
  split at h <;> exact List.mem_of_mem_take h

/-- A text without the letter that both tokens start with has no delimiter. -/
theorem delimiterFree_of_not_mem {text : CodePoints} (h : 60 ∉ text) : DelimiterFree text := by
  have hbegin : 60 ∈ dataBlockBegin := by decide
  have hend : 60 ∈ dataBlockEnd := by decide
  exact ⟨fun hin => h (hin.subset hbegin), fun hin => h (hin.subset hend)⟩

/-- **Neither sanitizing nor quoting leaves a delimiter.** -/
theorem delimiterFree_sanitized (lower : String → String)
    (htmlEvents : CodePoints → List HtmlEvent) (content : CodePoints) :
    DelimiterFree (sanitizeContent lower htmlEvents content) := by
  unfold sanitizeContent
  split
  · exact delimiterFree_collapsed (delimiterFree_neutralized _)
  · exact delimiterFree_collapsed (delimiterFree_of_not_mem ‹_›)

theorem DelimiterFree.extractQuote {text : CodePoints} (h : DelimiterFree text) (maxWords : ℤ) :
    DelimiterFree (extractQuote text maxWords) :=
  h.words fun _ hword => mem_of_mem_sliceTo hword

/-! ## What a screen and a block take -/

/-- The tokens that the screen looks for. -/
def screenedTokens : List CodePoints := dataBlockBegin :: dataBlockEnd :: toolCallMarkers

theorem screenUntrustedText_eq_none_iff {text : CodePoints} :
    screenUntrustedText text = none ↔ ∀ token ∈ screenedTokens, ¬ token <:+: text := by
  rw [screenedTokens, List.forall_mem_cons, List.forall_mem_cons, ← and_assoc]
  have hfree : (¬ dataBlockBegin <:+: text ∧ ¬ dataBlockEnd <:+: text) ↔
      containsDelimiter text = false := containsDelimiter_eq_false_iff.symm
  rw [hfree, screenUntrustedText]
  split_ifs with hdelimiter hmarker
  · simp [hdelimiter]
  · simp only [List.any_eq_true, decide_eq_true_eq] at hmarker
    obtain ⟨marker, hmem, hin⟩ := hmarker
    simp only [reduceCtorEq, false_iff]
    exact fun h => h.2 marker hmem hin
  · simp only [List.any_eq_true, decide_eq_true_eq, not_exists, not_and] at hmarker
    simp only [true_iff]
    exact ⟨Bool.not_eq_true _ ▸ hdelimiter, hmarker⟩

theorem delimiterFree_of_screenUntrustedText {text : CodePoints}
    (h : screenUntrustedText text = none) : DelimiterFree text := by
  have hnone := screenUntrustedText_eq_none_iff.mp h
  exact ⟨hnone _ (.head _), hnone _ (.tail _ (.head _))⟩

/-- A text that passes the screen for one line passes the other, and is one line. -/
theorem screenSingleLineText_eq_none {text : CodePoints} (h : screenSingleLineText text = none) :
    screenUntrustedText text = none ∧ 10 ∉ text ∧ 13 ∉ text := by
  unfold screenSingleLineText at h
  cases hscreen : screenUntrustedText text with
  | some failure => simp [hscreen] at h
  | none => simpa [hscreen, not_or] using h

/-- **What it takes to write a block.** -/
theorem wrapBlock_ok_iff {label bodyName : String} {labelValue body block : CodePoints} :
    wrapBlock label labelValue bodyName body = .ok block ↔
      (DelimiterFree labelValue ∧ 10 ∉ labelValue ∧ 34 ∉ labelValue) ∧ DelimiterFree body ∧
        block = dataBlockBegin ++ (blockInside label labelValue body ++ dataBlockEnd) := by
  have hlabel : requireBlockLabelSafe label labelValue = .ok () ↔
      DelimiterFree labelValue ∧ 10 ∉ labelValue ∧ 34 ∉ labelValue := by
    rw [requireBlockLabelSafe, ← containsDelimiter_eq_false_iff]
    split_ifs with hrefused
    · refine ⟨fun h => absurd h (by simp), fun ⟨hfree, hnewline, hquote⟩ => ?_⟩
      rcases hrefused with hdelimiter | h10 | h34
      · exact absurd hdelimiter (by simp [hfree])
      · exact absurd h10 hnewline
      · exact absurd h34 hquote
    · simpa [not_or] using hrefused
  have hbody : requireBlockBodySafe bodyName body = .ok () ↔ DelimiterFree body := by
    rw [requireBlockBodySafe, ← containsDelimiter_eq_false_iff]
    split_ifs with hrefused <;> simp [hrefused]
  rw [← hlabel, ← hbody]
  constructor
  · intro h
    obtain ⟨⟨⟩, hlabel, h⟩ := Effects.except_bind_ok.mp h
    obtain ⟨⟨⟩, hbody, h⟩ := Effects.except_bind_ok.mp h
    exact ⟨hlabel, hbody, (Except.ok.inj h).symm⟩
  · rintro ⟨hlabel, hbody, rfl⟩
    exact Effects.except_bind_ok.mpr ⟨(), hlabel, Effects.except_bind_ok.mpr ⟨(), hbody, rfl⟩⟩

end Windbreak
