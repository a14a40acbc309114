import Mathlib.Data.List.Infix

/-!
# Cutting a text at its tokens

A text is read from the left and cut wherever a token starts; the token itself is dropped.  Between
the cuts no token starts, so joining the pieces with something no token contains gives a text
without tokens, and a text made of token-free parts with tokens between them is cut back into those
parts.

* `pieces` — the pieces between the cuts; `splitOn` and `words` cut at a token and at separators.
* **`not_infix_replaceAll`** — what replacing leaves has no token.
* **`splitOn_append`** — a text is cut at the first token put into it.
-/

namespace TokenCuts

variable {α : Type}

/-- The pieces of a text.  `cut` says how long the token is that starts a text, if any; the number
counts what is still to be dropped of a token. -/
def pieces (cut : List α → ℕ) : ℕ → List α → List (List α)
  | _, [] => [[]]
  | dropped + 1, _ :: rest => pieces cut dropped rest
  | 0, x :: rest =>
    match cut (x :: rest) with
    | 0 => (pieces cut 0 rest).modifyHead (x :: ·)
    | length + 1 => [] :: pieces cut length rest

/-- No token starts in a part of a text that something follows. -/
def Clear (cut : List α → ℕ) (part after : List α) : Prop :=
  ∀ suffix, suffix ≠ [] → suffix <:+ part → cut (suffix ++ after) = 0

theorem Clear.cons {cut : List α → ℕ} {x : α} {part after : List α}
    (hfirst : cut (x :: (part ++ after)) = 0) (h : Clear cut part after) :
    Clear cut (x :: part) after := by
  intro suffix hne hsuffix
  rcases List.suffix_cons_iff.mp hsuffix with rfl | hsuffix
  · exact hfirst
  · exact h suffix hne hsuffix

/-- **The pieces are clear parts of the text**, and the first one starts it unless a token is still
being dropped. -/
theorem pieces_spec (cut : List α → ℕ) (dropped : ℕ) (text : List α) :
    ∃ first rest, pieces cut dropped text = first :: rest ∧
      (dropped = 0 → ∃ after, text = first ++ after ∧ Clear cut first after) ∧
        ∀ piece ∈ first :: rest, ∃ before after, text = before ++ (piece ++ after) ∧
          Clear cut piece after := by
  have hnothing : ∀ after, Clear cut [] after := fun after suffix hne hsuffix =>
    absurd (List.suffix_nil.mp hsuffix) hne
  induction text generalizing dropped with
  | nil =>
      refine ⟨[], [], by cases dropped <;> rfl, fun _ => ⟨[], rfl, hnothing []⟩, ?_⟩
      intro piece hpiece
      rw [List.mem_singleton.mp hpiece]
      exact ⟨[], [], rfl, hnothing []⟩
  | cons x text ih =>
      cases dropped with
      | succ dropped =>
          obtain ⟨first, rest, hpieces, -, hclear⟩ := ih dropped
          refine ⟨first, rest, hpieces, fun h => absurd h (Nat.succ_ne_zero _), fun piece hpiece => ?_⟩
          obtain ⟨before, after, htext, hpart⟩ := hclear piece hpiece
          exact ⟨x :: before, after, by rw [htext]; rfl, hpart⟩
      | zero =>
          cases hcut : cut (x :: text) with
          | zero =>
              obtain ⟨first, rest, hpieces, hfirst, hclear⟩ := ih 0
              obtain ⟨after, htext, hleads⟩ := hfirst rfl
              have hgrown : Clear cut (x :: first) after := hleads.cons (by rw [← htext]; exact hcut)
              refine ⟨x :: first, rest, by rw [pieces, hcut]; simp [hpieces],
                fun _ => ⟨after, by rw [htext]; rfl, hgrown⟩, fun piece hpiece => ?_⟩
              rcases List.mem_cons.mp hpiece with rfl | hpiece
              · exact ⟨[], after, by rw [htext]; rfl, hgrown⟩
              · obtain ⟨before, after, htext, hpart⟩ := hclear piece (.tail _ hpiece)
                exact ⟨x :: before, after, by rw [htext]; rfl, hpart⟩
          | succ length =>
              obtain ⟨first, rest, hpieces, -, hclear⟩ := ih length
              refine ⟨[], first :: rest, by rw [pieces, hcut]; simp [hpieces],
                fun _ => ⟨x :: text, rfl, hnothing _⟩, fun piece hpiece => ?_⟩
              rcases List.mem_cons.mp hpiece with rfl | hpiece
              · exact ⟨[], x :: text, rfl, hnothing _⟩
              · obtain ⟨before, after, htext, hpart⟩ := hclear piece hpiece
                exact ⟨x :: before, after, by rw [htext]; rfl, hpart⟩

theorem exists_clear {cut : List α → ℕ} {text piece : List α} (h : piece ∈ pieces cut 0 text) :
    piece <:+: text ∧ ∃ after, Clear cut piece after := by
  obtain ⟨first, rest, hpieces, -, hclear⟩ := pieces_spec cut 0 text
  obtain ⟨before, after, htext, hpart⟩ := hclear piece (hpieces ▸ h)
  exact ⟨⟨before, after, by rw [htext, List.append_assoc]⟩, after, hpart⟩

/-- Dropping a token. -/
theorem pieces_drop (cut : List α → ℕ) (dropped text : List α) :
    pieces cut dropped.length (dropped ++ text) = pieces cut 0 text := by
  induction dropped with
  | nil => rfl
  | cons _ dropped ih => exact ih

/-! ## Words -/

/-- One for a separator at the start of a text. -/
def separatorLength (separates : α → Bool) : List α → ℕ
  | [] => 0
  | x :: _ => if separates x then 1 else 0

/-- The pieces of a text between its separators, without the empty ones. -/
def words (separates : α → Bool) (text : List α) : List (List α) :=
  (pieces (separatorLength separates) 0 text).filter fun piece => !piece.isEmpty

theorem infix_of_mem_words {separates : α → Bool} {text word : List α}
    (h : word ∈ words separates text) : word <:+: text :=
  (exists_clear (List.mem_filter.mp h).1).1

/-- A text that no separator is in, followed by a separator, is the first piece. -/
theorem pieces_append_separator {separates : α → Bool} {x : α} (hx : separates x = true)
    {part : List α} (hpart : ∀ y ∈ part, separates y = false) (after : List α) :
    pieces (separatorLength separates) 0 (part ++ x :: after) =
      part :: pieces (separatorLength separates) 0 after := by
  induction part with
  | nil =>
      have hcut : separatorLength separates (x :: after) = 1 := if_pos hx
      rw [List.nil_append, pieces, hcut]
  | cons y part ih =>
      have hcut : separatorLength separates (y :: (part ++ x :: after)) = 0 :=
        if_neg (by rw [hpart y (.head _)]; exact Bool.false_ne_true)
      rw [List.cons_append, pieces, hcut, ih fun z hz => hpart z (.tail _ hz)]
      rfl

theorem pieces_of_no_separator {separates : α → Bool} {part : List α}
    (hpart : ∀ y ∈ part, separates y = false) :
    pieces (separatorLength separates) 0 part = [part] := by
  induction part with
  | nil => rfl
  | cons y part ih =>
      have hcut : separatorLength separates (y :: part) = 0 :=
        if_neg (by rw [hpart y (.head _)]; exact Bool.false_ne_true)
      rw [pieces, hcut, ih fun z hz => hpart z (.tail _ hz)]
      simp

/-- **Parts joined by a separator are cut back into the parts**, when none of them has one. -/
theorem pieces_intercalate {separates : α → Bool} {x : α} (hx : separates x = true)
    (part : List α) (rest : List (List α))
    (hparts : ∀ one ∈ part :: rest, ∀ y ∈ one, separates y = false) :
    pieces (separatorLength separates) 0 ([x].intercalate (part :: rest)) = part :: rest := by
  induction rest generalizing part with
  | nil =>
      rw [List.intercalate_singleton]
      exact pieces_of_no_separator (hparts part (.head _))
  | cons next rest ih =>
      rw [List.intercalate_cons_cons, List.append_assoc, List.singleton_append,
        pieces_append_separator hx (hparts part (.head _)),
        ih next fun one hone => hparts one (.tail _ hone)]

/-! ## Joining -/

/-- A token without some letter does not straddle that letter. -/
theorem infix_append_cons {token before after : List α} {x : α} (hx : x ∉ token)
    (h : token <:+: before ++ x :: after) : token <:+: before ∨ token <:+: after := by
  obtain ⟨front, back, heq⟩ := h
  rw [List.append_assoc] at heq
  rcases List.append_eq_append_iff.mp heq with ⟨more, hbefore, hrest⟩ | ⟨more, hfront, hrest⟩
  · -- the token starts before the letter, so it ends before it
    rcases List.append_eq_append_iff.mp hrest with ⟨more', hmore, -⟩ | ⟨more', htoken, hafter⟩
    · exact .inl ⟨front, more', by rw [hbefore, hmore, List.append_assoc]⟩
    · cases more' with
      | nil => exact .inl ⟨front, [], by rw [hbefore, htoken]; simp⟩
      | cons y more' =>
          cases hafter
          exact absurd (htoken ▸ by simp) hx
  · cases more with
    | nil =>
        cases htoken : token with
        | nil => exact .inl (List.nil_infix)
        | cons y token' =>
            rw [htoken] at hrest
            cases hrest
            exact absurd (htoken ▸ List.mem_cons_self) hx
    | cons y more =>
        cases hrest
        exact .inr ⟨more, back, by simp⟩

/-- Two texts without a token, with a letter between them that the token does not have. -/
theorem not_infix_append_cons {token before after : List α} {x : α} (hx : x ∉ token)
    (hbefore : ¬ token <:+: before) (hafter : ¬ token <:+: after) :
    ¬ token <:+: before ++ x :: after := fun h =>
  (infix_append_cons hx h).elim hbefore hafter

/-- A token without the letter that joins some pieces stands in one of the pieces. -/
theorem exists_infix_of_infix_intercalate {token : List α} {x : α} (htoken : token ≠ [])
    (hx : x ∉ token) {parts : List (List α)} (h : token <:+: [x].intercalate parts) :
    ∃ part ∈ parts, token <:+: part := by
  induction parts with
  | nil => exact absurd (List.infix_nil.mp h) htoken
  | cons part rest ih =>
      cases rest with
      | nil => exact ⟨part, .head _, by simpa using h⟩
      | cons next rest =>
          rw [List.intercalate_cons_cons, List.append_assoc] at h
          rcases infix_append_cons hx h with h | h
          · exact ⟨part, .head _, h⟩
          · obtain ⟨other, hother, hin⟩ := ih h
            exact ⟨other, .tail _ hother, hin⟩

/-- Words joined by a letter have no token that the text does not have. -/
theorem not_infix_of_words {token text : List α} {separates : α → Bool} {x : α} (htoken : token ≠ [])
    (hx : x ∉ token) (h : ¬ token <:+: text) {some : List (List α)}
    (hsome : ∀ word ∈ some, word ∈ words separates text) :
    ¬ token <:+: [x].intercalate some := by
  intro hin
  obtain ⟨word, hword, hin⟩ := exists_infix_of_infix_intercalate htoken hx hin
  exact h (hin.trans (infix_of_mem_words (hsome word hword)))

/-- A token without some letter that starts a text starts it before that letter. -/
theorem prefix_of_prefix_append_cons (before : List α) {token after : List α} {x : α} (hx : x ∉ token)
    (h : token <+: before ++ x :: after) : token <+: before := by
  induction before generalizing token with
  | nil =>
      cases token with
      | nil => exact List.nil_prefix
      | cons y token => exact absurd ((List.cons_prefix_cons.mp h).1 ▸ List.mem_cons_self) hx
  | cons y before ih =>
      cases token with
      | nil => exact List.nil_prefix
      | cons z token =>
          obtain ⟨rfl, hrest⟩ := List.cons_prefix_cons.mp h
          exact List.cons_prefix_cons.mpr ⟨rfl, ih (fun hin => hx (.tail _ hin)) hrest⟩

/-- A text that tokens can be put around: neither token is in it. -/
def Bare (opening closing text : List α) : Prop := ¬ opening <:+: text ∧ ¬ closing <:+: text

/-- Bare parts joined by a letter that no token has are bare. -/
theorem Bare.intercalate {opening closing : List α} {x : α} (hopening : opening ≠ [])
    (hclosing : closing ≠ []) (hx : x ∉ opening) (hx' : x ∉ closing) {parts : List (List α)}
    (h : ∀ part ∈ parts, Bare opening closing part) :
    Bare opening closing ([x].intercalate parts) := by
  constructor
  · intro hin
    obtain ⟨part, hpart, hin⟩ := exists_infix_of_infix_intercalate hopening hx hin
    exact (h part hpart).1 hin
  · intro hin
    obtain ⟨part, hpart, hin⟩ := exists_infix_of_infix_intercalate hclosing hx' hin
    exact (h part hpart).2 hin

/-! ## Tokens -/

variable [DecidableEq α]

/-- The length of a token that starts a text. -/
def tokenLength (token text : List α) : ℕ := if token <+: text then token.length else 0

/-- The pieces of a text between the occurrences of a token. -/
def splitOn (token text : List α) : List (List α) := pieces (tokenLength token) 0 text

/-- The text with every occurrence of a token replaced. -/
def replaceAll (token by' text : List α) : List α := by'.intercalate (splitOn token text)

/-- **No piece between the occurrences of a token has the token.** -/
theorem not_infix_of_mem_splitOn {token text piece : List α} (htoken : token ≠ [])
    (h : piece ∈ splitOn token text) : ¬ token <:+: piece := by
  rintro ⟨before, behind, rfl⟩
  obtain ⟨-, after, hclear⟩ := exists_clear h
  have hsuffix : token ++ behind <:+ before ++ token ++ behind := by
    rw [List.append_assoc]
    exact List.suffix_append before (token ++ behind)
  have hzero := hclear (token ++ behind) (by simp [htoken]) hsuffix
  have hprefix : token <+: token ++ behind ++ after := by
    rw [List.append_assoc]
    exact List.prefix_append _ _
  rw [tokenLength, if_pos hprefix] at hzero
  exact htoken (List.length_eq_zero_iff.mp hzero)

theorem infix_of_mem_splitOn {token text piece : List α} (h : piece ∈ splitOn token text) :
    piece <:+: text := (exists_clear h).1

/-- **Replacing a token with a letter that no token has leaves no token**: neither the one replaced
nor any that was not there before. -/
theorem not_infix_replaceAll {token other text : List α} {x : α} (hother : other ≠ [])
    (hx : x ∉ other) (h : other = token ∨ ¬ other <:+: text) :
    ¬ other <:+: replaceAll token [x] text := by
  intro hin
  obtain ⟨part, hpart, hpiece⟩ := exists_infix_of_infix_intercalate hother hx hin
  rcases h with heq | hnew
  · subst heq
    exact not_infix_of_mem_splitOn hother hpart hpiece
  · exact hnew (hpiece.trans (infix_of_mem_splitOn hpart))

/-! ## Cutting a text put together of parts -/

/-- A text without the token is one piece. -/
theorem splitOn_of_not_infix {token text : List α} (h : ¬ token <:+: text) :
    splitOn token text = [text] := by
  induction text with
  | nil => rfl
  | cons x rest ih =>
      have hstart : ¬ token <+: x :: rest := fun hprefix => h hprefix.isInfix
      have hlength : tokenLength token (x :: rest) = 0 := if_neg hstart
      have hrest := ih fun hin => h (hin.trans (List.suffix_cons x rest).isInfix)
      rw [splitOn] at hrest ⊢
      rw [pieces, hlength]
      simp [hrest]

theorem splitOn_token_append (after : List α) {token : List α} (htoken : token ≠ []) :
    splitOn token (token ++ after) = [] :: splitOn token after := by
  cases token with
  | nil => exact absurd rfl htoken
  | cons x token =>
      have hlength : tokenLength (x :: token) (x :: (token ++ after)) = token.length + 1 :=
        if_pos (List.prefix_append (x :: token) after)
      rw [splitOn, List.cons_append, pieces, hlength]
      exact congrArg ([] :: ·) (pieces_drop _ token after)

/-- **A text is cut at the first token put into it**, when the part before has no token and ends in
a letter that the token does not have. -/
theorem splitOn_append (after : List α) {token before : List α} {x : α} (htoken : token ≠ []) (hx : x ∉ token)
    (h : ¬ token <:+: before) :
    splitOn token (before ++ x :: (token ++ after)) = (before ++ [x]) :: splitOn token after := by
  induction before with
  | nil =>
      have hlength : tokenLength token (x :: (token ++ after)) = 0 := by
        refine if_neg fun hprefix => htoken (List.prefix_nil.mp ?_)
        exact prefix_of_prefix_append_cons [] hx hprefix
      have hcut := splitOn_token_append after htoken
      rw [splitOn] at hcut ⊢
      rw [List.nil_append, pieces, hlength, hcut]
      rfl
  | cons y before ih =>
      have hlength : tokenLength token (y :: (before ++ x :: (token ++ after))) = 0 := by
        refine if_neg fun hprefix => h (List.IsPrefix.isInfix ?_)
        exact prefix_of_prefix_append_cons (y :: before) hx hprefix
      have hrest := ih fun hin => h (hin.trans (List.suffix_cons y before).isInfix)
      rw [splitOn] at hrest ⊢
      rw [List.cons_append, pieces, hlength, hrest]
      rfl

/-- **Parts with a token before each are cut back into the parts**, when no part has the token and
every part but the last ends in a letter that the token does not have. -/
theorem splitOn_joined (first : List α) (parts : List (List α)) {token : List α} {x : α}
    (htoken : token ≠ []) (hx : x ∉ token) (hclean : ∀ part ∈ first :: parts, ¬ token <:+: part)
    (hends : ∀ part ∈ (first :: parts).dropLast, part.getLast? = some x) :
    splitOn token (first ++ (parts.map (token ++ ·)).flatten) = first :: parts := by
  induction parts generalizing first with
  | nil =>
      rw [List.map_nil, List.flatten_nil, List.append_nil]
      exact splitOn_of_not_infix (hclean first (.head _))
  | cons part parts ih =>
      rw [List.dropLast_cons_cons] at hends
      obtain ⟨before, rfl⟩ := List.getLast?_eq_some_iff.mp (hends first (.head _))
      have hbefore : ¬ token <:+: before := fun hin =>
        hclean _ (.head _) (hin.trans (List.prefix_append before [x]).isInfix)
      have hrest := ih part (fun other hother => hclean other (.tail _ hother))
        fun other hother => hends other (.tail _ hother)
      have hcut := splitOn_append (part ++ (parts.map (token ++ ·)).flatten) htoken hx hbefore
      simp only [List.map_cons, List.flatten_cons, List.append_assoc, List.cons_append,
        List.nil_append] at hcut ⊢
      rw [hcut, hrest]

/-! ## Frames -/

/-- What stands inside a frame and what after it. -/
def scanFrame (closing part : List α) : Option (List α × List α) :=
  match splitOn closing part with
  | [inside, after] => some (inside, after)
  | _ => none

/-- What a scan finds of frames between an opening and a closing token: the text before the first
one, and of each the text inside it and the text after it. -/
def scanFrames (opening closing text : List α) :
    Option (List α × List (List α × List α)) :=
  match splitOn opening text with
  | [] => none
  | first :: rest =>
    if closing <:+: first then none
    else (rest.mapM (scanFrame closing)).map fun frames => (first, frames)

/-- Frames put into a text. -/
def framed (opening closing first : List α) (frames : List (List α × List α)) : List α :=
  first ++ (frames.map fun frame => opening ++ (frame.1 ++ (closing ++ frame.2))).flatten

theorem mapM_map_some {β γ : Type} {f : γ → β} {g : β → Option γ} {xs : List γ}
    (h : ∀ y ∈ xs, g (f y) = some y) : (xs.map f).mapM g = some xs := by
  induction xs with
  | nil => rfl
  | cons y rest ih =>
      rw [List.map_cons, List.mapM_cons, h y (.head _), ih fun z hz => h z (.tail _ hz)]
      rfl

section Frames

variable {opening closing : List α} {x : α}

/-- The inside of a frame and what follows it, cut at the closing token. -/
theorem scanFrame_framed {inside after : List α} (hclosing : closing ≠ []) (hx : x ∉ closing)
    (hinside : ¬ closing <:+: inside) (hends : inside.getLast? = some x)
    (hafter : ¬ closing <:+: after) :
    scanFrame closing (inside ++ (closing ++ after)) = some (inside, after) := by
  obtain ⟨before, rfl⟩ := List.getLast?_eq_some_iff.mp hends
  have hbefore : ¬ closing <:+: before := fun hin =>
    hinside (hin.trans (List.prefix_append before [x]).isInfix)
  have hcut := splitOn_append after hclosing hx hbefore
  rw [scanFrame, List.append_assoc, List.singleton_append, hcut, splitOn_of_not_infix hafter]

omit [DecidableEq α] in
/-- No opening token in a frame's inside, closing token and what follows. -/
theorem not_infix_frame {inside after : List α} (hx : x ∉ opening)
    (hapart : ¬ opening <:+: closing) (hinside : ¬ opening <:+: inside)
    (hends : inside.getLast? = some x) (hafter : ¬ opening <:+: after)
    (hstarts : ∀ y ∈ after.head?, y = x) :
    ¬ opening <:+: inside ++ (closing ++ after) := by
  obtain ⟨before, rfl⟩ := List.getLast?_eq_some_iff.mp hends
  have hbefore : ¬ opening <:+: before := fun hin =>
    hinside (hin.trans (List.prefix_append before [x]).isInfix)
  have hclosed : ¬ opening <:+: closing ++ after := by
    cases after with
    | nil => simpa using hapart
    | cons y rest =>
        cases hstarts y rfl
        have hrest : ¬ opening <:+: rest := fun hin =>
          hafter (hin.trans (List.suffix_cons _ rest).isInfix)
        exact not_infix_append_cons hx hapart hrest
  rw [List.append_assoc, List.singleton_append]
  exact not_infix_append_cons hx hbefore hclosed

/-- **A scan finds the frames that were put into a text**, when a letter that no token has stands
before every token and after every closing one. -/
theorem scanFrames_framed {first : List α} {frames : List (List α × List α)}
    (hopening : opening ≠ []) (hclosing : closing ≠ []) (hx : x ∉ opening) (hx' : x ∉ closing)
    (hapart : ¬ opening <:+: closing)
    (hfirst : Bare opening closing first ∧ first.getLast? = some x)
    (hinside : ∀ frame ∈ frames, Bare opening closing frame.1 ∧ frame.1.getLast? = some x)
    (hafter : ∀ frame ∈ frames, Bare opening closing frame.2 ∧ ∀ y ∈ frame.2.head?, y = x)
    (hends : ∀ frame ∈ frames.dropLast, frame.2.getLast? = some x) :
    scanFrames opening closing (framed opening closing first frames) = some (first, frames) := by
  have hsplit : splitOn opening (framed opening closing first frames) =
      first :: frames.map fun frame => frame.1 ++ (closing ++ frame.2) := by
    have hjoined := splitOn_joined first
      (frames.map fun frame => frame.1 ++ (closing ++ frame.2)) hopening hx ?_ ?_
    · rw [List.map_map] at hjoined
      exact hjoined
    · refine List.forall_mem_cons.mpr ⟨hfirst.1.1, fun part hpart => ?_⟩
      obtain ⟨frame, hframe, rfl⟩ := List.mem_map.mp hpart
      exact not_infix_frame hx hapart (hinside frame hframe).1.1 (hinside frame hframe).2
        (hafter frame hframe).1.1 (hafter frame hframe).2
    · cases frames with
      | nil => exact fun part hpart => absurd hpart List.not_mem_nil
      | cons frame rest =>
          have hlast : (first :: (frame :: rest).map fun frame =>
              frame.1 ++ (closing ++ frame.2)).dropLast =
                first :: (frame :: rest).dropLast.map fun frame =>
                  frame.1 ++ (closing ++ frame.2) := by
            rw [List.map_dropLast]
            rfl
          rw [hlast]
          refine List.forall_mem_cons.mpr ⟨hfirst.2, fun part hpart => ?_⟩
          obtain ⟨last, hlast, rfl⟩ := List.mem_map.mp hpart
          rw [List.getLast?_append, List.getLast?_append, hends last hlast]
          rfl
  have hframes : (frames.map fun frame => frame.1 ++ (closing ++ frame.2)).mapM (scanFrame closing) =
      some frames :=
    mapM_map_some fun frame hframe => scanFrame_framed hclosing hx' (hinside frame hframe).1.2
      (hinside frame hframe).2 (hafter frame hframe).1.2
  rw [scanFrames, hsplit]
  simp only [if_neg hfirst.1.2, hframes, Option.map_some]

end Frames

end TokenCuts
