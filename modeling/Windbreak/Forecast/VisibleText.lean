import Mathlib.Data.List.Infix
import Windbreak.Core.JsonScan
import Windbreak.Core.Scopes

/-!
# The visible text of a page

The events of a fetched page are read with a stack of the elements that stand open.  Text and
references are collected, references as they are spelled, unless an open element is suppressed or
hidden.  An end tag closes the innermost element of its name and all inside it; a void element never
stands open.

* **`feedHtml`** — the events read one by one; `visibleText` joins what was collected.
* **`visibleText_exact`** — of a tree exactly the visible nodes are collected, and of a stream in
  any disorder nothing before a concealing element is closed.

How `str.lower` treats letters beyond ASCII is a parameter.
-/

namespace Windbreak

open JsonValue Scopes

/-- Elements that never carry visible prose. -/
def suppressedTags : List String := ["script", "style", "template", "noscript", "iframe"]

/-- Elements that have no text of their own, and never stand open. -/
def voidTags : List String :=
  ["area", "base", "br", "col", "embed", "hr", "img", "input", "link", "meta", "param", "source",
    "track", "wbr"]

/-- What an inline style must not contain, its spaces taken out. -/
def hiddenStyleTokens : List String := ["display:none", "visibility:hidden", "font-size:0"]

/-- The attributes of an element, each with its value if it has one. -/
abbrev HtmlAttrs := List (String × Option String)

/-- What the parser of the page reports. -/
inductive HtmlEvent where
  | startTag (tag : String) (attrs : HtmlAttrs)
  | endTag (tag : String)
  | data (text : CodePoints)
  | entityref (name : CodePoints)
  | charref (name : CodePoints)

/-- An element that stands open. -/
structure ElementFrame where
  tag : String
  suppressed : Bool
  hidden : Bool
  deriving DecidableEq, Repr

/-- The open elements, innermost first, and the text collected so far. -/
structure VisibleTextParser where
  stack : List ElementFrame
  parts : List CodePoints

/-- A parser at the start of a page. -/
def VisibleTextParser.init : VisibleTextParser := ⟨[], []⟩

section Parser

variable (lower : String → String)

/-- Does an inline style hide its element? -/
def styleHides : Option String → Bool
  | none => false
  | some value =>
    let condensed := (lower value).toList.filter fun c => c ≠ ' '
    hiddenStyleTokens.any fun token => decide (token.toList <:+: condensed)

/-- Do the attributes hide their element? -/
def attrsHidden (attrs : HtmlAttrs) : Bool :=
  attrs.any fun attr =>
    attr.1 = "hidden" ||
      (attr.1 = "aria-hidden" && attr.2.any fun value => lower value = "true") ||
      (attr.1 = "style" && styleHides lower attr.2)

/-- Does an open element keep its text out? -/
def ElementFrame.conceals (frame : ElementFrame) : Bool := frame.suppressed || frame.hidden

/-- Does any open element keep text out? -/
def VisibleTextParser.hidden (parser : VisibleTextParser) : Bool :=
  parser.stack.any ElementFrame.conceals

/-- The frame of an element. -/
def elementFrame (tag : String) (attrs : HtmlAttrs) : ElementFrame :=
  ⟨tag, suppressedTags.contains tag, attrsHidden lower attrs⟩

def handleStarttag (parser : VisibleTextParser) (tag : String) (attrs : HtmlAttrs) :
    VisibleTextParser :=
  if voidTags.contains tag then parser
  else { parser with stack := elementFrame lower tag attrs :: parser.stack }

/-- Close the innermost element of a name and all inside it; a stray end tag is ignored. -/
def handleEndtag (parser : VisibleTextParser) (tag : String) : VisibleTextParser :=
  { parser with stack := closeNearest ElementFrame.tag tag parser.stack }

/-- Collect a text unless an open element keeps it out. -/
def collectText (parser : VisibleTextParser) (text : CodePoints) : VisibleTextParser :=
  if parser.hidden then parser else { parser with parts := parser.parts ++ [text] }

/-- A named reference as it is spelled. -/
def spelledEntityref (name : CodePoints) : CodePoints := codes "&" ++ name ++ codes ";"

/-- A numeric reference as it is spelled. -/
def spelledCharref (name : CodePoints) : CodePoints := codes "&#" ++ name ++ codes ";"

/-- One event. -/
def handleEvent (parser : VisibleTextParser) : HtmlEvent → VisibleTextParser
  | .startTag tag attrs => handleStarttag lower parser tag attrs
  | .endTag tag => handleEndtag parser tag
  | .data text => collectText parser text
  | .entityref name => collectText parser (spelledEntityref name)
  | .charref name => collectText parser (spelledCharref name)

/-- Feed the events of a page. -/
def feedHtml (parser : VisibleTextParser) (events : List HtmlEvent) : VisibleTextParser :=
  events.foldl (handleEvent lower) parser

end Parser

/-- The text collected, joined. -/
def VisibleTextParser.visibleText (parser : VisibleTextParser) : CodePoints :=
  parser.parts.flatten

/-! ## Trees -/

/-- A node without children. -/
inductive HtmlLeaf where
  | data (text : CodePoints)
  | entityref (name : CodePoints)
  | charref (name : CodePoints)

/-- Nodes side by side, each element over the nodes inside it.  A void element may come with or
without an end tag. -/
inductive HtmlForest where
  | nil
  | leaf (node : HtmlLeaf) (rest : HtmlForest)
  | element (tag : String) (attrs : HtmlAttrs) (endTag : Bool) (inside rest : HtmlForest)

/-- The event of a leaf. -/
def HtmlLeaf.event : HtmlLeaf → HtmlEvent
  | .data text => .data text
  | .entityref name => .entityref name
  | .charref name => .charref name

/-- A leaf as it is spelled. -/
def HtmlLeaf.spelled : HtmlLeaf → CodePoints
  | .data text => text
  | .entityref name => spelledEntityref name
  | .charref name => spelledCharref name

/-- The events of a page. -/
def HtmlForest.events : HtmlForest → List HtmlEvent
  | .nil => []
  | .leaf node rest => node.event :: rest.events
  | .element tag attrs endTag inside rest =>
    .startTag tag attrs :: inside.events ++
      (if voidTags.contains tag && !endTag then [] else [.endTag tag]) ++ rest.events

/-- The leaves under no concealing element, in order. -/
def HtmlForest.visible (conceals : String → HtmlAttrs → Bool) (concealed : Bool) :
    HtmlForest → List CodePoints
  | .nil => []
  | .leaf node rest =>
    (if concealed then [] else [node.spelled]) ++ rest.visible conceals concealed
  | .element tag attrs _ inside rest =>
    inside.visible conceals (concealed || conceals tag attrs) ++ rest.visible conceals concealed

/-- An element whose name or attributes keep its text out. -/
def marksConcealed (lower : String → String) (tag : String) (attrs : HtmlAttrs) : Bool :=
  (elementFrame lower tag attrs).conceals

/-- An element that keeps its text out: one marked so, and not void. -/
def concealsInside (lower : String → String) (tag : String) (attrs : HtmlAttrs) : Bool :=
  !voidTags.contains tag && marksConcealed lower tag attrs

section Trees

variable {lower : String → String}

theorem feedHtml_append (parser : VisibleTextParser) (before after : List HtmlEvent) :
    feedHtml lower parser (before ++ after) =
      feedHtml lower (feedHtml lower parser before) after :=
  List.foldl_append

theorem feedHtml_cons (parser : VisibleTextParser) (event : HtmlEvent) (rest : List HtmlEvent) :
    feedHtml lower parser (event :: rest) = feedHtml lower (handleEvent lower parser event) rest :=
  rfl

theorem handleEvent_leaf (parser : VisibleTextParser) (node : HtmlLeaf) :
    handleEvent lower parser node.event = collectText parser node.spelled := by
  cases node <;> rfl

/-- A parser that has collected some more texts. -/
def VisibleTextParser.collect (parser : VisibleTextParser) (texts : List CodePoints) :
    VisibleTextParser := { parser with parts := parser.parts ++ texts }

@[simp] theorem hidden_collect (parser : VisibleTextParser) (texts : List CodePoints) :
    (parser.collect texts).hidden = parser.hidden := rfl

@[simp] theorem collect_collect (parser : VisibleTextParser) (texts more : List CodePoints) :
    (parser.collect texts).collect more = parser.collect (texts ++ more) := by
  simp [VisibleTextParser.collect]

theorem collectText_eq (parser : VisibleTextParser) (text : CodePoints) :
    collectText parser text = parser.collect (if parser.hidden then [] else [text]) := by
  unfold collectText
  split
  · simp [VisibleTextParser.collect]
  · rfl

/-- No void element stands open. -/
def VisibleTextParser.NoneVoid (parser : VisibleTextParser) : Prop :=
  ∀ frame ∈ parser.stack, voidTags.contains frame.tag = false

/-- An end tag of a void element is stray. -/
theorem handleEndtag_void {parser : VisibleTextParser} (hnone : parser.NoneVoid) {tag : String}
    (hvoid : voidTags.contains tag = true) : handleEndtag parser tag = parser := by
  rw [handleEndtag, closeNearest_of_none]
  intro frame hframe heq
  have hother := hnone frame hframe
  rw [heq, hvoid] at hother
  cases hother

theorem VisibleTextParser.NoneVoid.collect {parser : VisibleTextParser} (hnone : parser.NoneVoid)
    (texts : List CodePoints) : (parser.collect texts).NoneVoid := hnone

/-- **A tree is read as it is seen**, from whatever elements stand open. -/
theorem feedHtml_events (forest : HtmlForest) {parser : VisibleTextParser}
    (hnone : parser.NoneVoid) :
    feedHtml lower parser forest.events =
      parser.collect (forest.visible (concealsInside lower) parser.hidden) := by
  induction forest generalizing parser with
  | nil => simp [HtmlForest.events, HtmlForest.visible, feedHtml, VisibleTextParser.collect]
  | leaf node rest ih =>
      rw [HtmlForest.events, feedHtml_cons, handleEvent_leaf, collectText_eq, ih (hnone.collect _),
        hidden_collect, collect_collect, HtmlForest.visible]
  | element tag attrs endTag inside rest ihinside ihrest =>
      rw [HtmlForest.events, List.cons_append, List.cons_append, feedHtml_cons, List.append_assoc,
        feedHtml_append, feedHtml_append, HtmlForest.visible, ← collect_collect]
      by_cases hvoid : voidTags.contains tag = true
      · -- the start tag of a void element opens nothing, and its end tag is stray
        have hstart : handleEvent lower parser (.startTag tag attrs) = parser := by
          rw [handleEvent, handleStarttag, if_pos hvoid]
        have hend : ∀ p : VisibleTextParser, p.NoneVoid → feedHtml lower p
            (if voidTags.contains tag && !endTag then [] else [.endTag tag]) = p := by
          intro p hp
          split
          · rfl
          · exact handleEndtag_void hp hvoid
        have hopen : concealsInside lower tag attrs = false := by
          rw [concealsInside, hvoid]
          rfl
        rw [hstart, ihinside hnone, hend _ (hnone.collect _), ihrest (hnone.collect _),
          hidden_collect, hopen, Bool.or_false]
      · have hnonvoid : voidTags.contains tag = false := Bool.eq_false_iff.mpr hvoid
        have hstart : handleEvent lower parser (.startTag tag attrs) =
            { parser with stack := elementFrame lower tag attrs :: parser.stack } := by
          rw [handleEvent, handleStarttag, if_neg hvoid]
        have hinner : VisibleTextParser.NoneVoid
            { parser with stack := elementFrame lower tag attrs :: parser.stack } :=
          List.forall_mem_cons.mpr ⟨hnonvoid, hnone⟩
        have hconceals : VisibleTextParser.hidden
              { parser with stack := elementFrame lower tag attrs :: parser.stack } =
            (parser.hidden || concealsInside lower tag attrs) := by
          rw [VisibleTextParser.hidden, List.any_cons, concealsInside, hnonvoid, Bool.or_comm]
          rfl
        -- the end tag closes the element that its start tag opened
        have hend : ∀ texts, feedHtml lower (VisibleTextParser.collect
              { parser with stack := elementFrame lower tag attrs :: parser.stack } texts)
            (if voidTags.contains tag && !endTag then [] else [.endTag tag]) =
              parser.collect texts := by
          intro texts
          rw [hnonvoid]
          exact congrArg (fun stack => VisibleTextParser.mk stack (parser.parts ++ texts))
            (closeNearest_cons_self ElementFrame.tag (elementFrame lower tag attrs) parser.stack)
        rw [hstart, ihinside hinner, hconceals, hend, ihrest (hnone.collect _), hidden_collect]

end Trees

/-! ## Streams -/

/-- What an event does to the open elements. -/
def eventMark (lower : String → String) : HtmlEvent → Mark ElementFrame String
  | .startTag tag attrs =>
    if voidTags.contains tag then .passes else .opens (elementFrame lower tag attrs)
  | .endTag tag => .closes tag
  | .data _ => .passes
  | .entityref _ => .passes
  | .charref _ => .passes

/-- The text of an event, as it is spelled. -/
def HtmlEvent.spelled : HtmlEvent → Option CodePoints
  | .startTag _ _ => none
  | .endTag _ => none
  | .data text => some text
  | .entityref name => some (spelledEntityref name)
  | .charref name => some (spelledCharref name)

/-- The event at a position is a text, and reading it collects it. -/
def CollectedAt (lower : String → String) (events : List HtmlEvent) (j : ℕ) : Prop :=
  ∃ event text, events[j]? = some event ∧ event.spelled = some text ∧
    (feedHtml lower .init (events.take (j + 1))).parts =
      (feedHtml lower .init (events.take j)).parts ++ [text]

section Streams

variable {lower : String → String}

theorem collectText_stack (parser : VisibleTextParser) (text : CodePoints) :
    (collectText parser text).stack = parser.stack := by
  rw [collectText_eq]
  rfl

theorem handleEvent_stack (parser : VisibleTextParser) (event : HtmlEvent) :
    (handleEvent lower parser event).stack =
      markStack ElementFrame.tag parser.stack (eventMark lower event) := by
  cases event with
  | startTag tag attrs =>
      rw [handleEvent, handleStarttag, eventMark]
      split <;> rfl
  | endTag tag => rfl
  | data text => exact collectText_stack parser text
  | entityref name => exact collectText_stack parser _
  | charref name => exact collectText_stack parser _

/-- The parser's stack is the stack of the open elements. -/
theorem feedHtml_stack (events : List HtmlEvent) :
    (feedHtml lower .init events).stack =
      stackAfter ElementFrame.tag (events.map (eventMark lower)) := by
  have hfrom : ∀ parser : VisibleTextParser, (feedHtml lower parser events).stack =
      (events.map (eventMark lower)).foldl (markStack ElementFrame.tag) parser.stack := by
    induction events with
    | nil => exact fun _ => rfl
    | cons event rest ih =>
        intro parser
        rw [feedHtml_cons, ih, handleEvent_stack, List.map_cons, List.foldl_cons]
  exact hfrom .init

theorem handleEvent_spelled (parser : VisibleTextParser) {event : HtmlEvent} {text : CodePoints}
    (h : event.spelled = some text) :
    handleEvent lower parser event = collectText parser text := by
  cases event <;> cases h <;> rfl

/-- **A text is collected exactly when no concealing element is open before it.** -/
theorem collectedAt_iff {events : List HtmlEvent} {j : ℕ} {event : HtmlEvent} {text : CodePoints}
    (hevent : events[j]? = some event) (htext : event.spelled = some text) :
    CollectedAt lower events j ↔
      ∀ i frame, OpensAt (events.map (eventMark lower)) i frame → frame.conceals = true →
        ¬ OpenAt ElementFrame.tag (events.map (eventMark lower)) i j := by
  have hhidden : (feedHtml lower .init (events.take j)).hidden = true ↔
      ∃ i frame, OpensAt (events.map (eventMark lower)) i frame ∧ frame.conceals = true ∧
        OpenAt ElementFrame.tag (events.map (eventMark lower)) i j := by
    rw [VisibleTextParser.hidden, feedHtml_stack, List.map_take, List.any_eq_true]
    constructor
    · rintro ⟨frame, hframe, hconceals⟩
      obtain ⟨i, hopens, hopen⟩ := mem_stackAfter_iff.mp hframe
      exact ⟨i, frame, hopens, hconceals, hopen⟩
    · rintro ⟨i, frame, hopens, hconceals, hopen⟩
      exact ⟨frame, mem_stackAfter_iff.mpr ⟨i, hopens, hopen⟩, hconceals⟩
  have hread : feedHtml lower .init (events.take (j + 1)) =
      (feedHtml lower .init (events.take j)).collect
        (if (feedHtml lower .init (events.take j)).hidden then [] else [text]) := by
    rw [List.take_add_one, hevent, Option.toList_some, feedHtml_append, ← collectText_eq,
      ← handleEvent_spelled _ htext]
    rfl
  have hcollected : CollectedAt lower events j ↔
      (feedHtml lower .init (events.take j)).hidden ≠ true := by
    constructor
    · rintro ⟨event', text', -, -, hparts⟩ hin
      rw [hread, if_pos hin] at hparts
      have hlength := congrArg List.length hparts
      simp [VisibleTextParser.collect] at hlength
    · intro hout
      refine ⟨event, text, hevent, htext, ?_⟩
      rw [hread, if_neg hout]
      rfl
  rw [hcollected, Ne, hhidden]
  constructor
  · exact fun hnone i frame hopens hconceals hopen => hnone ⟨i, frame, hopens, hconceals, hopen⟩
  · rintro hall ⟨i, frame, hopens, hconceals, hopen⟩
    exact hall i frame hopens hconceals hopen

/-- **Exactly the visible text is collected.**  Of a tree: the leaves under no element that is
suppressed or hidden, a void element concealing nothing.  Of any stream: no text after such an
element opens, before an end tag closes that element or one around it. -/
theorem visibleText_exact (lower : String → String) :
    (∀ forest : HtmlForest, (feedHtml lower .init forest.events).visibleText =
        (forest.visible (concealsInside lower) false).flatten) ∧
      ∀ (events : List HtmlEvent) (i j : ℕ) (tag : String) (attrs : HtmlAttrs),
        events[i]? = some (.startTag tag attrs) → concealsInside lower tag attrs = true → i < j →
          CollectedAt lower events j → ∃ m, i < m ∧ m < j ∧ ∃ k ≤ i,
            ClosesAt ElementFrame.tag (events.map (eventMark lower)) k m := by
  constructor
  · intro forest
    have hnone : VisibleTextParser.init.NoneVoid := fun _ h => absurd h List.not_mem_nil
    rw [VisibleTextParser.visibleText, feedHtml_events forest hnone]
    rfl
  · intro events i j tag attrs hstart hconceals hij hcollected
    obtain ⟨event, text, hevent, htext, -⟩ := id hcollected
    obtain ⟨hnonvoid, hmarked⟩ := Bool.and_eq_true_iff.mp hconceals
    have hopens : OpensAt (events.map (eventMark lower)) i (elementFrame lower tag attrs) := by
      rw [OpensAt, List.getElem?_map, hstart, Option.map_some, eventMark,
        if_neg (by simpa using hnonvoid)]
    exact exists_closesAt hij hopens ((collectedAt_iff hevent htext).mp hcollected i _ hopens hmarked)

/-- A hidden void element with a text inside it. -/
def hiddenImage : HtmlForest :=
  .element "img" [("hidden", none)] true (.leaf (.data [120]) .nil) .nil

/-- A void element conceals nothing: the text inside it is collected all the same. -/
theorem hidden_void_element_collects :
    (feedHtml String.toLower .init hiddenImage.events).visibleText = [120] ∧
      (hiddenImage.visible (marksConcealed String.toLower) false).flatten = [] := by
  decide +kernel

end Streams

end Windbreak
