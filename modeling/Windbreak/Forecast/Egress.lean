import Mathlib.Data.List.Infix
import Windbreak.Core.Effects
import Windbreak.Core.JsonScan

/-!
# What research may reach, and what it may cite

A page is fetched only from a host on the allowlist, and a citation is verified against a page that
is fetched anew.  How a URL is split, what a page is and whether the cache takes it come from
outside; text may hold unpaired surrogates, which have no bytes.

* `ResearchTools.fetch` — the gate, the transport and the archive.
* `verifyCitation` — a verdict for a citation, from the gate's and the transport's refusals alone.
* **`gated_and_judged_iff`** — the gate refuses and the verifier judges, and neither raises anything else,
  exactly when the URL splits, and a page that is let in has bytes and a place in the cache.
-/

namespace Windbreak.Egress

open Effects

/-- A URL, as what it is split into. -/
structure SplitUrl where
  scheme : CodePoints
  hostname : Option CodePoints

/-- What a fetch raises. -/
inductive FetchError where
  | egressDenied
  | osError
  | valueError
  | unicodeEncodeError
  | sandboxPathViolation
  | runtimeError
  deriving DecidableEq, Repr

/-- What comes of finding a file for a page: it is opened, or an error is raised on the way. -/
inductive Placed where
  | opened
  | osError
  | sandboxPathViolation
  | runtimeError
  deriving DecidableEq, Repr

/-- The tools of research.  What is outside answers by the URLs that were called before. -/
structure ResearchTools where
  allowedHosts : List CodePoints
  /-- Splitting a URL, which may raise. -/
  urlsplit : CodePoints → Option SplitUrl
  /-- The lower case of a text. -/
  lower : CodePoints → CodePoints
  /-- A page, or an error of the transport. -/
  transport : List CodePoints → CodePoints → Option CodePoints
  /-- The digest of the bytes of a text. -/
  sha256 : CodePoints → String
  /-- Finding a file in the cache. -/
  place : List CodePoints → String → Placed

/-! ## The gate -/

/-- The code points that count as white space. -/
def isSpace (c : ℕ) : Bool :=
  (9 ≤ c && c ≤ 13) || (28 ≤ c && c ≤ 32) || c = 133 || c = 160 || c = 5760 ||
    (8192 ≤ c && c ≤ 8202) || c = 8232 || c = 8233 || c = 8239 || c = 8287 || c = 12288

def hasUnsafeUrlChars (url : CodePoints) : Bool :=
  url.any fun c => isSpace c || decide (c < 32) || c = 127

def allowedSchemes : List CodePoints := [JsonValue.codes "http", JsonValue.codes "https"]

/-- Whether a text has bytes: no unpaired surrogate is in it. -/
def encodable (text : CodePoints) : Bool := text.all fun c => c < 55296 || 57343 < c

namespace ResearchTools

variable (tools : ResearchTools)

def cacheFilename (url : CodePoints) : Except FetchError String :=
  if encodable url then .ok (tools.sha256 url ++ ".txt") else .error .unicodeEncodeError

/-- Keep a page in the cache.  An error of the system is logged and goes no further. -/
def archive (url content : CodePoints) : EStateM FetchError (List CodePoints) Unit := fun calls =>
  match tools.cacheFilename url with
  | .error e => .error e calls
  | .ok name => match tools.place calls name with
    | .opened => if encodable content then .ok () calls else .error .unicodeEncodeError calls
    | .osError => .ok () calls
    | .sandboxPathViolation => .error .sandboxPathViolation calls
    | .runtimeError => .error .runtimeError calls

/-- Call the transport. -/
def callTransport (url : CodePoints) : EStateM FetchError (List CodePoints) CodePoints :=
  fun calls => match tools.transport calls url with
    | some content => .ok content (calls ++ [url])
    | none => .error .osError (calls ++ [url])

/-- Fetch a page from a host on the allowlist. -/
def fetch (url : CodePoints) : EStateM FetchError (List CodePoints) CodePoints :=
  if hasUnsafeUrlChars url then throw .egressDenied
  else match tools.urlsplit url with
    | none => throw .valueError
    | some parts =>
      if tools.lower parts.scheme ∉ allowedSchemes then throw .egressDenied
      else match parts.hostname with
        | none => throw .egressDenied
        | some hostname =>
          if hostname = [] then throw .egressDenied
          else if tools.lower hostname ∉ tools.allowedHosts then throw .egressDenied
          else do
            let content ← tools.callTransport url
            tools.archive url content
            return content

/-! ## The verifier -/

inductive Failure where
  | unreachable
  | contentHashMismatch
  | quoteNotFound
  | publicationDateInvalid
  | unknownSourceType
  deriving DecidableEq, Repr

end ResearchTools

open ResearchTools (Failure)

/-- A citation; a publication date that is there may still name no instant. -/
structure Citation where
  url : CodePoints
  contentHash : String
  quotedText : CodePoints
  publicationDate : Option (Option ℤ)
  sourceType : String
  deriving DecidableEq, Repr

/-- A verdict: verified exactly when nothing failed. -/
structure CitationVerdict where
  verified : Bool
  failure : Option Failure
  verified_iff : verified = failure.isNone

def knownSourceTypes : List String := ["news_article", "research_note", "primary_source"]

/-- Whether a date that is there names no instant, or one that is still to come. -/
def publicationDateInvalid (asOf : ℤ) : Option (Option ℤ) → Bool
  | none => false
  | some none => true
  | some (some date) => asOf < date

namespace ResearchTools

variable (tools : ResearchTools)

def contentHashOf (content : CodePoints) : Except FetchError String :=
  if encodable content then .ok ("sha256:" ++ tools.sha256 content) else .error .unicodeEncodeError

/-- The first check that a fetched page fails. -/
def firstFailure (content : CodePoints) (citation : Citation) (asOf : ℤ) :
    Except FetchError (Option Failure) := do
  if (← tools.contentHashOf content) ≠ citation.contentHash then
    return some .contentHashMismatch
  else if citation.quotedText = [] ∨ ¬citation.quotedText <:+: content then
    return some .quoteNotFound
  else if publicationDateInvalid asOf citation.publicationDate then
    return some .publicationDateInvalid
  else if citation.sourceType ∉ knownSourceTypes then
    return some .unknownSourceType
  else return none

/-- Verify a citation against a page that is fetched anew. -/
def verifyCitation (citation : Citation) (asOf : ℤ) :
    EStateM FetchError (List CodePoints) CitationVerdict := fun calls =>
  match (tools.fetch citation.url).run calls with
  | .error .egressDenied calls' => .ok ⟨false, some .unreachable, rfl⟩ calls'
  | .error .osError calls' => .ok ⟨false, some .unreachable, rfl⟩ calls'
  | .error e calls' => .error e calls'
  | .ok content calls' => match tools.firstFailure content citation asOf with
    | .error e => .error e calls'
    | .ok failure => .ok ⟨failure.isNone, failure, rfl⟩ calls'

/-! ## What is permitted -/

/-- **A URL that may be fetched**: no control or white space in it, one of the two schemes, and a
host that is on the allowlist. -/
structure Permitted (url : CodePoints) : Prop where
  safe : hasUnsafeUrlChars url = false
  listed : ∃ parts hostname, tools.urlsplit url = some parts ∧
    tools.lower parts.scheme ∈ allowedSchemes ∧ parts.hostname = some hostname ∧ hostname ≠ [] ∧
    tools.lower hostname ∈ tools.allowedHosts

/-- **The gate** calls the transport for a permitted URL alone, and refuses any other. -/
structure Gated (url : CodePoints) : Prop where
  contained : ∀ calls, finalState ((tools.fetch url).run calls) ≠ calls → tools.Permitted url
  refused : ¬tools.Permitted url → ∀ calls, (tools.fetch url).run calls = .error .egressDenied calls

/-- A page bears a citation out. -/
structure Supports (content : CodePoints) (citation : Citation) (asOf : ℤ) : Prop where
  content_hash : "sha256:" ++ tools.sha256 content = citation.contentHash
  quote_nonempty : citation.quotedText ≠ []
  quote_found : citation.quotedText <:+: content
  publication_date : citation.publicationDate = none ∨
    ∃ date ≤ asOf, citation.publicationDate = some (some date)
  source_type : citation.sourceType ∈ knownSourceTypes

/-- **The verifier** always judges, and rightly. -/
def Judges (citation : Citation) (asOf : ℤ) : Prop :=
  ∀ calls, ∃ verdict calls', (tools.verifyCitation citation asOf).run calls = .ok verdict calls' ∧
    (verdict.verified = true ↔ tools.Permitted citation.url ∧
      ∃ content, tools.transport calls citation.url = some content ∧
        tools.Supports content citation asOf)

/-- **A URL that raises nothing of its own**: it is unsafe, or it splits; and if it is let in, every
page that comes back can be written, and its place in the cache is found or missed by an error of
the system. -/
def Harmless (url : CodePoints) : Prop :=
  hasUnsafeUrlChars url = true ∨
    (tools.urlsplit url ≠ none ∧ (tools.Permitted url → ∀ calls content,
      tools.transport calls url = some content → encodable url = true ∧ encodable content = true ∧
        (tools.place (calls ++ [url]) (tools.sha256 url ++ ".txt") = .opened ∨
          tools.place (calls ++ [url]) (tools.sha256 url ++ ".txt") = .osError)))

variable {tools}

/-! ## The gate's cases -/

theorem fetch_of_control {url : CodePoints} (h : hasUnsafeUrlChars url = true)
    (calls : List CodePoints) : (tools.fetch url).run calls = .error .egressDenied calls := by
  rw [fetch, if_pos h]
  rfl

/-- A URL that does not split is refused with the splitter's own error. -/
theorem fetch_of_unsplit {url : CodePoints} (hsafe : ¬hasUnsafeUrlChars url = true)
    (h : tools.urlsplit url = none) (calls : List CodePoints) :
    (tools.fetch url).run calls = .error .valueError calls := by
  rw [fetch, if_neg hsafe, h]
  rfl

/-- **Any other URL** is let in or refused. -/
theorem fetch_cases {url : CodePoints} (hsafe : ¬hasUnsafeUrlChars url = true)
    (hsplit : tools.urlsplit url ≠ none) :
    (tools.Permitted url ∧ tools.fetch url = (do
      let content ← tools.callTransport url
      tools.archive url content
      return content)) ∨
    (¬tools.Permitted url ∧ tools.fetch url = throw .egressDenied) := by
  obtain ⟨parts, hparts⟩ := Option.ne_none_iff_exists'.mp hsplit
  rw [fetch, if_neg hsafe, hparts]
  dsimp only
  have hlisted : tools.Permitted url → ∃ hostname, tools.lower parts.scheme ∈ allowedSchemes ∧
      parts.hostname = some hostname ∧ hostname ≠ [] ∧
        tools.lower hostname ∈ tools.allowedHosts := by
    rintro ⟨-, parts', hostname, hparts', hlisted⟩
    obtain rfl := Option.some.inj (hparts.symm.trans hparts')
    exact ⟨hostname, hlisted⟩
  by_cases hscheme : tools.lower parts.scheme ∈ allowedSchemes
  · rw [if_neg (not_not.mpr hscheme)]
    cases hhost : parts.hostname with
    | none =>
        refine Or.inr ⟨fun hpermitted => ?_, rfl⟩
        obtain ⟨hostname, -, hsome, -⟩ := hlisted hpermitted
        cases hhost.symm.trans hsome
    | some hostname =>
        dsimp only
        by_cases hempty : hostname = []
        · refine Or.inr ⟨fun hpermitted => ?_, if_pos hempty⟩
          obtain ⟨hostname', -, hsome, hnonempty, -⟩ := hlisted hpermitted
          obtain rfl := Option.some.inj (hhost.symm.trans hsome)
          exact hnonempty hempty
        · rw [if_neg hempty]
          by_cases hallowed : tools.lower hostname ∈ tools.allowedHosts
          · refine Or.inl ⟨⟨Bool.eq_false_iff.mpr hsafe, parts, hostname, hparts, hscheme, hhost,
              hempty, hallowed⟩, if_neg (not_not.mpr hallowed)⟩
          · refine Or.inr ⟨fun hpermitted => ?_, if_pos hallowed⟩
            obtain ⟨hostname', -, hsome, -, hin⟩ := hlisted hpermitted
            obtain rfl := Option.some.inj (hhost.symm.trans hsome)
            exact hallowed hin
  · refine Or.inr ⟨fun hpermitted => ?_, if_pos hscheme⟩
    obtain ⟨-, hin, -⟩ := hlisted hpermitted
    exact hscheme hin

/-- **A page is kept**, or an error of the system loses it, exactly when it has bytes to keep. -/
theorem archive_ok_iff {url content : CodePoints} {calls : List CodePoints} :
    (tools.archive url content).run calls = .ok () calls ↔ encodable url = true ∧
      (tools.place calls (tools.sha256 url ++ ".txt") = .osError ∨
        (tools.place calls (tools.sha256 url ++ ".txt") = .opened ∧ encodable content = true)) := by
  rw [EStateM.run, archive, cacheFilename]
  by_cases hurl : encodable url = true
  · rw [if_pos hurl]
    dsimp only
    cases tools.place calls (tools.sha256 url ++ ".txt") with
    | opened =>
        dsimp only
        by_cases hcontent : encodable content = true
        · rw [if_pos hcontent]
          exact iff_of_true rfl ⟨hurl, Or.inr ⟨rfl, hcontent⟩⟩
        · rw [if_neg hcontent]
          refine iff_of_false (fun h => by cases h) ?_
          rintro ⟨-, h | ⟨-, h⟩⟩
          · cases h
          · exact hcontent h
    | osError => exact iff_of_true rfl ⟨hurl, Or.inl rfl⟩
    | sandboxPathViolation =>
        refine iff_of_false (fun h => by cases h) ?_
        rintro ⟨-, h | ⟨h, -⟩⟩
        · cases h
        · cases h
    | runtimeError =>
        refine iff_of_false (fun h => by cases h) ?_
        rintro ⟨-, h | ⟨h, -⟩⟩
        · cases h
        · cases h
  · rw [if_neg hurl]
    exact iff_of_false (fun h => by cases h) fun h => hurl h.1

variable (tools) in
/-- What the archive raises, nobody expects. -/
theorem archive_cases (url content : CodePoints) (calls : List CodePoints) :
    (tools.archive url content).run calls = .ok () calls ∨
      ∃ e, e ≠ .egressDenied ∧ e ≠ .osError ∧
        (tools.archive url content).run calls = .error e calls := by
  rw [EStateM.run, archive, cacheFilename]
  by_cases hurl : encodable url = true
  · rw [if_pos hurl]
    dsimp only
    cases tools.place calls (tools.sha256 url ++ ".txt") with
    | opened =>
        dsimp only
        by_cases hcontent : encodable content = true
        · exact Or.inl (if_pos hcontent)
        · exact Or.inr ⟨.unicodeEncodeError, by decide, by decide, if_neg hcontent⟩
    | osError => exact Or.inl rfl
    | sandboxPathViolation => exact Or.inr ⟨.sandboxPathViolation, by decide, by decide, rfl⟩
    | runtimeError => exact Or.inr ⟨.runtimeError, by decide, by decide, rfl⟩
  · rw [if_neg hurl]
    exact Or.inr ⟨.unicodeEncodeError, by decide, by decide, rfl⟩

section LetIn

variable {url : CodePoints} (hfetch : tools.fetch url = (do
  let content ← tools.callTransport url
  tools.archive url content
  return content))

include hfetch

theorem fetch_unreachable {calls : List CodePoints} (h : tools.transport calls url = none) :
    (tools.fetch url).run calls = .error .osError (calls ++ [url]) := by
  have hcall : (tools.callTransport url).run calls = .error .osError (calls ++ [url]) := by
    rw [EStateM.run, callTransport, h]
  rw [hfetch, EStateM.run_bind, hcall]

theorem fetch_archived {calls : List CodePoints} {content : CodePoints}
    (h : tools.transport calls url = some content)
    (harchive : (tools.archive url content).run (calls ++ [url]) = .ok () (calls ++ [url])) :
    (tools.fetch url).run calls = .ok content (calls ++ [url]) := by
  have hcall : (tools.callTransport url).run calls = .ok content (calls ++ [url]) := by
    rw [EStateM.run, callTransport, h]
  rw [hfetch, EStateM.run_bind, hcall]
  dsimp only
  rw [EStateM.run_bind, harchive]
  rfl

theorem fetch_of_archive_error {calls : List CodePoints} {content : CodePoints} {e : FetchError}
    (h : tools.transport calls url = some content)
    (harchive : (tools.archive url content).run (calls ++ [url]) = .error e (calls ++ [url])) :
    (tools.fetch url).run calls = .error e (calls ++ [url]) := by
  have hcall : (tools.callTransport url).run calls = .ok content (calls ++ [url]) := by
    rw [EStateM.run, callTransport, h]
  rw [hfetch, EStateM.run_bind, hcall]
  dsimp only
  rw [EStateM.run_bind, harchive]

end LetIn

/-! ## The verifier's cases -/

theorem publicationDateInvalid_eq_false_iff {asOf : ℤ} {publicationDate : Option (Option ℤ)} :
    publicationDateInvalid asOf publicationDate = false ↔ publicationDate = none ∨
      ∃ date ≤ asOf, publicationDate = some (some date) := by
  match publicationDate with
  | none => exact iff_of_true rfl (Or.inl rfl)
  | some none =>
      refine iff_of_false (fun h => by cases h) ?_
      rintro (h | ⟨date, -, h⟩)
      · cases h
      · cases h
  | some (some date) =>
      rw [publicationDateInvalid, decide_eq_false_iff_not, Int.not_lt]
      constructor
      · exact fun h => Or.inr ⟨date, h, rfl⟩
      · rintro (h | ⟨date', hdate', h⟩)
        · cases h
        · cases h
          exact hdate'

variable (tools) in
/-- **A page with bytes is judged** by whether it bears the citation out. -/
theorem firstFailure_ok {content : CodePoints} (hcontent : encodable content = true)
    (citation : Citation) (asOf : ℤ) :
    ∃ failure, tools.firstFailure content citation asOf = .ok failure ∧
      (failure.isNone = true ↔ tools.Supports content citation asOf) := by
  have hhash : tools.contentHashOf content = .ok ("sha256:" ++ tools.sha256 content) :=
    if_pos hcontent
  have hrun : tools.firstFailure content citation asOf =
      if "sha256:" ++ tools.sha256 content ≠ citation.contentHash then
        .ok (some .contentHashMismatch)
      else if citation.quotedText = [] ∨ ¬citation.quotedText <:+: content then
        .ok (some .quoteNotFound)
      else if publicationDateInvalid asOf citation.publicationDate then
        .ok (some .publicationDateInvalid)
      else if citation.sourceType ∉ knownSourceTypes then .ok (some .unknownSourceType)
      else .ok none := by
    rw [firstFailure, hhash]
    rfl
  rw [hrun]
  by_cases hsame : "sha256:" ++ tools.sha256 content = citation.contentHash
  · rw [if_neg (not_not.mpr hsame)]
    by_cases hquote : citation.quotedText = [] ∨ ¬citation.quotedText <:+: content
    · refine ⟨_, if_pos hquote, iff_of_false Bool.false_ne_true fun h => ?_⟩
      exact hquote.elim h.quote_nonempty fun hnot => hnot h.quote_found
    · rw [if_neg hquote]
      obtain ⟨hnonempty, hfound⟩ := not_or.mp hquote
      by_cases hdate : publicationDateInvalid asOf citation.publicationDate = true
      · refine ⟨_, if_pos hdate, iff_of_false Bool.false_ne_true fun h => ?_⟩
        rw [publicationDateInvalid_eq_false_iff.mpr h.publication_date] at hdate
        cases hdate
      · rw [if_neg hdate]
        have hvalid := publicationDateInvalid_eq_false_iff.mp (Bool.eq_false_iff.mpr hdate)
        by_cases hknown : citation.sourceType ∈ knownSourceTypes
        · exact ⟨_, if_neg (not_not.mpr hknown), iff_of_true rfl
            ⟨hsame, hnonempty, not_not.mp hfound, hvalid, hknown⟩⟩
        · exact ⟨_, if_pos hknown, iff_of_false Bool.false_ne_true fun h => hknown h.source_type⟩
  · exact ⟨_, if_pos hsame, iff_of_false Bool.false_ne_true fun h => hsame h.content_hash⟩

theorem verifyCitation_of_refused {citation : Citation} {calls : List CodePoints}
    (h : (tools.fetch citation.url).run calls = .error .egressDenied calls) (asOf : ℤ) :
    (tools.verifyCitation citation asOf).run calls = .ok ⟨false, some .unreachable, rfl⟩ calls := by
  rw [EStateM.run, verifyCitation, h]

/-- An error of a fetch that is not expected is an error of the verifier. -/
theorem verifyCitation_of_error {citation : Citation} {calls calls' : List CodePoints}
    {e : FetchError} (hdenied : e ≠ .egressDenied) (hos : e ≠ .osError)
    (h : (tools.fetch citation.url).run calls = .error e calls') (asOf : ℤ) :
    (tools.verifyCitation citation asOf).run calls = .error e calls' := by
  rw [EStateM.run, verifyCitation, h]
  cases e with
  | egressDenied => exact absurd rfl hdenied
  | osError => exact absurd rfl hos
  | _ => rfl

theorem verifyCitation_of_fetched {citation : Citation} {calls calls' : List CodePoints}
    {content : CodePoints} (h : (tools.fetch citation.url).run calls = .ok content calls')
    {asOf : ℤ} {failure : Option Failure}
    (hjudged : tools.firstFailure content citation asOf = .ok failure) :
    (tools.verifyCitation citation asOf).run calls = .ok ⟨failure.isNone, failure, rfl⟩ calls' := by
  rw [EStateM.run, verifyCitation, h]
  dsimp only
  rw [hjudged]

/-! ## Closed, and nothing else -/

/-- **A harmless URL** is let in or refused. -/
theorem gated_of_harmless {url : CodePoints} (h : tools.Harmless url) : tools.Gated url := by
  by_cases hsafe : hasUnsafeUrlChars url = true
  · refine ⟨fun calls hmoved => absurd ?_ hmoved, fun _ => fetch_of_control hsafe⟩
    rw [fetch_of_control hsafe]
    rfl
  · obtain ⟨hsplit, -⟩ := h.resolve_left hsafe
    rcases fetch_cases hsafe hsplit with ⟨hpermitted, -⟩ | ⟨hdenied, hfetch⟩
    · exact ⟨fun _ _ => hpermitted, fun hnot => absurd hpermitted hnot⟩
    · refine ⟨fun calls hmoved => absurd ?_ hmoved, fun _ calls => by rw [hfetch]; rfl⟩
      rw [hfetch]
      rfl

/-- A refused citation is judged unreachable. -/
theorem judged_of_refused {citation : Citation} {asOf : ℤ} {calls : List CodePoints}
    (hdenied : ¬tools.Permitted citation.url)
    (h : (tools.fetch citation.url).run calls = .error .egressDenied calls) :
    ∃ verdict calls', (tools.verifyCitation citation asOf).run calls = .ok verdict calls' ∧
      (verdict.verified = true ↔ tools.Permitted citation.url ∧
        ∃ content, tools.transport calls citation.url = some content ∧
          tools.Supports content citation asOf) :=
  ⟨_, _, verifyCitation_of_refused h asOf,
    iff_of_false Bool.false_ne_true fun hverified => hdenied hverified.1⟩

/-- **A citation of a harmless URL** is judged. -/
theorem judges_of_harmless {citation : Citation} (h : tools.Harmless citation.url) (asOf : ℤ) :
    tools.Judges citation asOf := by
  intro calls
  by_cases hsafe : hasUnsafeUrlChars citation.url = true
  · refine judged_of_refused (fun hpermitted => ?_) (fetch_of_control hsafe calls)
    cases hpermitted.safe.symm.trans hsafe
  obtain ⟨hsplit, hpages⟩ := h.resolve_left hsafe
  rcases fetch_cases hsafe hsplit with ⟨hpermitted, hfetch⟩ | ⟨hdenied, hfetch⟩
  · cases hpage : tools.transport calls citation.url with
    | none =>
        have hunreachable := fetch_unreachable hfetch hpage
        refine ⟨⟨false, some .unreachable, rfl⟩, calls ++ [citation.url], ?_, ?_⟩
        · rw [EStateM.run, verifyCitation, hunreachable]
        · refine iff_of_false Bool.false_ne_true ?_
          rintro ⟨-, content, hcontent, -⟩
          cases hcontent
    | some content =>
        obtain ⟨hurl, hcontent, hplace⟩ := hpages hpermitted calls content hpage
        have harchive := archive_ok_iff.mpr
          ⟨hurl, hplace.symm.imp_right fun hopened => ⟨hopened, hcontent⟩⟩
        obtain ⟨failure, hjudged, hsupports⟩ := tools.firstFailure_ok hcontent citation asOf
        refine ⟨_, _, verifyCitation_of_fetched (fetch_archived hfetch hpage harchive) hjudged, ?_⟩
        constructor
        · exact fun hverified => ⟨hpermitted, content, rfl, hsupports.mp hverified⟩
        · rintro ⟨-, content', hcontent', hsupported⟩
          cases hcontent'
          exact hsupports.mpr hsupported
  · exact judged_of_refused hdenied (by rw [hfetch]; rfl)

/-- **Nothing else is raised** exactly when the citation's URL raises nothing of its own. -/
theorem gated_and_judged_iff (tools : ResearchTools) (citation : Citation) (asOf : ℤ) :
    (tools.Gated citation.url ∧ tools.Judges citation asOf) ↔ tools.Harmless citation.url := by
  constructor
  · rintro ⟨hgated, hjudges⟩
    by_cases hsafe : hasUnsafeUrlChars citation.url = true
    · exact Or.inl hsafe
    have hsplit : tools.urlsplit citation.url ≠ none := by
      intro hnone
      have hdenied : ¬tools.Permitted citation.url := by
        rintro ⟨-, parts, hostname, hparts, -⟩
        cases hnone.symm.trans hparts
      cases (fetch_of_unsplit hsafe hnone []).symm.trans (hgated.refused hdenied [])
    refine Or.inr ⟨hsplit, fun hpermitted calls content hpage => ?_⟩
    obtain ⟨verdict, calls', hverdict, -⟩ := hjudges calls
    rcases fetch_cases hsafe hsplit with ⟨-, hfetch⟩ | ⟨hdenied, -⟩
    · rcases tools.archive_cases citation.url content (calls ++ [citation.url]) with
        harchive | ⟨e, hdenied, hos, harchive⟩
      · obtain ⟨hurl, hplace⟩ := archive_ok_iff.mp harchive
        refine ⟨hurl, ?_, hplace.symm.imp_left And.left⟩
        by_contra hcontent
        have hhash : tools.contentHashOf content = .error .unicodeEncodeError := if_neg hcontent
        have hjudged : tools.firstFailure content citation asOf = .error .unicodeEncodeError := by
          rw [firstFailure, hhash]
          rfl
        have hraises : (tools.verifyCitation citation asOf).run calls =
            .error .unicodeEncodeError (calls ++ [citation.url]) := by
          rw [EStateM.run, verifyCitation, fetch_archived hfetch hpage harchive]
          dsimp only
          rw [hjudged]
        cases hraises.symm.trans hverdict
      · have hraises := verifyCitation_of_error hdenied hos
          (fetch_of_archive_error hfetch hpage harchive) asOf
        cases hraises.symm.trans hverdict
    · exact absurd hpermitted hdenied
  · exact fun h => ⟨gated_of_harmless h, judges_of_harmless h asOf⟩

end ResearchTools

/-! ## A bracket that is not closed -/

/-- A URL whose host has a bracket that is not closed. -/
def unclosedUrl : CodePoints := JsonValue.codes "http://[host/"

/-- Tools whose splitter refuses a bracket that is not closed, and which reach nothing. -/
def bracketTools : ResearchTools where
  allowedHosts := [JsonValue.codes "host"]
  urlsplit := fun url => if 91 ∈ url ∧ 93 ∉ url then none else some ⟨[], none⟩
  lower := id
  transport := fun _ _ => none
  sha256 := fun _ => "digest"
  place := fun _ _ => .opened

def unclosedCitation : Citation := ⟨unclosedUrl, "sha256:digest", [], none, "news_article"⟩

/-- **A bracket that is not closed** raises the splitter's error from the gate and from the
verifier. -/
theorem unclosed_bracket_escapes :
    (bracketTools.fetch unclosedUrl).run [] = .error .valueError [] ∧
      (bracketTools.verifyCitation unclosedCitation 0).run [] = .error .valueError [] ∧
      ¬(bracketTools.Gated unclosedUrl ∧ bracketTools.Judges unclosedCitation 0) := by
  have hverify : (bracketTools.verifyCitation unclosedCitation 0).run [] = .error .valueError [] :=
    rfl
  refine ⟨rfl, hverify, ?_⟩
  rintro ⟨-, hjudges⟩
  obtain ⟨verdict, calls, hverdict, -⟩ := hjudges []
  cases hverify.symm.trans hverdict

end Windbreak.Egress
