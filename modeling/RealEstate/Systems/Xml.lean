import Mathlib.Data.List.TakeWhile
import RealEstate.Systems.Text

/-!
# Markup and text

- `escape`: `xml.sax.saxutils.escape`.
- `Item`: a tag, and the text before it; `render` writes them.
- `readXml`: what a parser makes of a document: its tags, which nest, and the text between them.
- `readXml_render`: a document of items is read back; `isSome_readXml` says when it can be read.
-/

namespace RealEstate

namespace Systems

namespace Xml

/-- `t.replace(c, by)`. -/
def replaceChar (c : Char) (new : Text) (t : Text) : Text :=
  t.flatMap fun d => if d = c then new else [d]

/-- `escape(data)`: the ampersand comes first. -/
def escape (t : Text) : Text :=
  replaceChar '<' ['&', 'l', 't', ';'] (replaceChar '>' ['&', 'g', 't', ';']
    (replaceChar '&' ['&', 'a', 'm', 'p', ';'] t))

/-- A tag as it stands between the angle brackets, with the text before it. -/
structure Item where
  text : Text
  tag : Text
  deriving DecidableEq

/-- A text and the tag after it. -/
def Item.render (item : Item) : Text := escape item.text ++ '<' :: (item.tag ++ ['>'])

/-- All of them. -/
def render (items : List Item) : Text := items.flatMap Item.render

/-- `<name>text</name>`. -/
def element (name text : Text) : List Item := [⟨[], name⟩, ⟨text, '/' :: name⟩]

/-- `<name>`. -/
def startTag (name : Text) : Text := '<' :: (name ++ ['>'])

/-- `</name>`. -/
def endTag (name : Text) : Text := startTag ('/' :: name)

/-! ### Reading -/

/-- The characters of an XML document. -/
def isXmlChar (c : Char) : Bool :=
  c = '\t' || c = '\n' || c = '\r' || (0x20 ≤ c.toNat && c.toNat ≤ 0xD7FF) ||
    (0xE000 ≤ c.toNat && c.toNat ≤ 0xFFFD) || 0x10000 ≤ c.toNat

/-- The five entities. -/
def entities : List (Text × Char) :=
  [(['a', 'm', 'p'], '&'), (['l', 't'], '<'), (['g', 't'], '>'), (['q', 'u', 'o', 't'], '"'),
    (['a', 'p', 'o', 's'], '\'')]

/-- Where a reader is. -/
inductive Mode where
  | content
  | tag (name : Text)
  | entity (name : Text)

/-- The state of a reader. -/
structure Reader where
  mode : Mode
  text : Text
  items : List Item

/-- One character. -/
def Reader.step (r : Reader) (c : Char) : Option Reader :=
  match r.mode with
  | .content =>
    if c = '<' then some { r with mode := .tag [] }
    else if c = '&' then some { r with mode := .entity [] }
    else some { r with text := r.text ++ [c] }
  | .tag name =>
    if c = '>' then some ⟨.content, [], r.items ++ [⟨r.text, name⟩]⟩
    else if c = '<' then none
    else some { r with mode := .tag (name ++ [c]) }
  | .entity name =>
    if c = ';' then
      (entities.lookup name).map fun d => { r with mode := .content, text := r.text ++ [d] }
    else some { r with mode := .entity (name ++ [c]) }

/-- One character, if XML has it. -/
def Reader.feed (r : Reader) (c : Char) : Option Reader := if isXmlChar c then r.step c else none

/-- The name of a tag, without its attributes. -/
def tagName (tag : Text) : Text := tag.takeWhile (· ≠ ' ')

/-- Tags nest: each end tag closes the last element that is open. -/
def nests : List Text → List Text → Bool
  | opened, [] => opened.isEmpty
  | opened, ('?' :: _) :: tags => nests opened tags
  | name :: opened, ('/' :: closed) :: tags => closed = name && nests opened tags
  | [], ('/' :: _) :: _ => false
  | opened, tag :: tags => nests (tagName tag :: opened) tags

/-- Line breaks are line feeds to a parser; a carriage return takes one along. -/
def normalizeLines : (afterReturn : Bool) → Text → Text
  | _, [] => []
  | afterReturn, c :: t =>
    if c = '\n' ∧ afterReturn = true then normalizeLines false t
    else (if c = '\r' then '\n' else c) :: normalizeLines (c = '\r') t

/-- With its line ends normalized. -/
def Item.normalized (item : Item) : Item := { item with text := normalizeLines false item.text }

/-- The items of a document, and none if it is not well formed. -/
def readXml (t : Text) : Option (List Item) :=
  ((normalizeLines false t).foldlM Reader.feed ⟨.content, [], []⟩).bind fun r =>
    match r.mode with
    | .content => if r.text = [] ∧ nests [] (r.items.map Item.tag) then some r.items else none
    | _ => none

/-! ### Reading back -/

/-- All of its characters are XML's. -/
def AllXml (t : Text) : Prop := ∀ c ∈ t, isXmlChar c = true

/-- A tag that a document can have. -/
def IsTag (tag : Text) : Prop :=
  ∀ c ∈ tag, isXmlChar c = true ∧ c ≠ '<' ∧ c ≠ '>' ∧ c ≠ '\r' ∧ c ≠ '\n'

/-- Over the characters. -/
instance instDecidableIsTag (tag : Text) : Decidable (IsTag tag) := List.decidableBAll _ tag

theorem escape_cons (c : Char) (t : Text) : escape (c :: t) = escape [c] ++ escape t := by
  show escape ([c] ++ t) = _
  simp only [escape, replaceChar, List.flatMap_append]

/-- What becomes of one character. -/
theorem escape_singleton (c : Char) :
    c = '&' ∧ escape [c] = ['&', 'a', 'm', 'p', ';'] ∨ c = '<' ∧ escape [c] = ['&', 'l', 't', ';'] ∨
    c = '>' ∧ escape [c] = ['&', 'g', 't', ';'] ∨ (c ≠ '&' ∧ c ≠ '<' ∧ escape [c] = [c]) := by
  by_cases hamp : c = '&'
  · cases hamp
    exact .inl ⟨rfl, rfl⟩
  · by_cases hlt : c = '<'
    · cases hlt
      exact .inr (.inl ⟨rfl, rfl⟩)
    · by_cases hgt : c = '>'
      · cases hgt
        exact .inr (.inr (.inl ⟨rfl, rfl⟩))
      · refine .inr (.inr (.inr ⟨hamp, hlt, ?_⟩))
        simp [escape, replaceChar, hamp, hlt, hgt]

theorem normalizeLines_plain {t : Text} (h : ∀ c ∈ t, c ≠ '\r' ∧ c ≠ '\n') (rest : Text)
    (b : Bool) (hne : t ≠ []) :
    normalizeLines b (t ++ rest) = t ++ normalizeLines false rest := by
  induction t generalizing b with
  | nil => exact absurd rfl hne
  | cons c t ih =>
    obtain ⟨hcr, hlf⟩ := h c List.mem_cons_self
    rw [List.cons_append, normalizeLines, if_neg fun hc => hlf hc.1, if_neg hcr,
      decide_eq_false hcr]
    cases t with
    | nil => rfl
    | cons d t =>
      rw [ih (fun e he => h e (List.mem_cons_of_mem _ he)) false fun heq => by cases heq]
      rfl

/-- Lines are normalized in the texts. -/
theorem normalizeLines_escape (t rest : Text) (b : Bool) :
    normalizeLines b (escape t ++ '<' :: rest) =
      escape (normalizeLines b t) ++ '<' :: normalizeLines false rest := by
  induction t generalizing b with
  | nil => exact normalizeLines_plain (t := ['<']) (by simp) rest b (by simp)
  | cons c t ih =>
    -- A character that is no line's end is escaped and normalised independently.
    have hplain : ∀ u : Text, escape [c] = u → (∀ d ∈ u, d ≠ '\r' ∧ d ≠ '\n') → u ≠ [] →
        c ≠ '\r' → c ≠ '\n' → normalizeLines b (escape (c :: t) ++ '<' :: rest) =
          escape (normalizeLines b (c :: t)) ++ '<' :: normalizeLines false rest := by
      intro u hu hlines hne hcr hlf
      rw [escape_cons, hu, List.append_assoc, normalizeLines_plain hlines _ _ hne, ih false,
        normalizeLines, if_neg fun hc => hlf hc.1, if_neg hcr, decide_eq_false hcr, escape_cons c,
        hu, List.append_assoc]
    rcases escape_singleton c with ⟨rfl, hc⟩ | ⟨rfl, hc⟩ | ⟨rfl, hc⟩ | ⟨hamp, hlt, hc⟩
    · exact hplain _ hc (by simp) (by simp) (by decide) (by decide)
    · exact hplain _ hc (by simp) (by simp) (by decide) (by decide)
    · exact hplain _ hc (by simp) (by simp) (by decide) (by decide)
    · rw [escape_cons, hc, List.singleton_append, List.cons_append, normalizeLines, normalizeLines]
      split
      · -- A line feed behind a carriage return is dropped on both sides.
        exact ih false
      · rw [ih, escape_cons (if c = '\r' then '\n' else c)]
        split
        · rfl
        · rw [hc]
          rfl

theorem foldlM_escape {t : Text} (ht : AllXml t) : ∀ (text : Text) (items : List Item),
    (escape t).foldlM Reader.feed ⟨.content, text, items⟩ = some ⟨.content, text ++ t, items⟩ := by
  induction t with
  | nil =>
    intro text items
    rw [List.append_nil]
    rfl
  | cons c t ih =>
    intro text items
    -- Each character is read back as itself, through its reference or as it stands.
    have hone : (escape [c]).foldlM Reader.feed ⟨.content, text, items⟩ =
        some ⟨.content, text ++ [c], items⟩ := by
      rcases escape_singleton c with ⟨rfl, hc⟩ | ⟨rfl, hc⟩ | ⟨rfl, hc⟩ | ⟨hamp, hlt, hc⟩
      · rw [hc]
        rfl
      · rw [hc]
        rfl
      · rw [hc]
        rfl
      · have hfeed : Reader.feed ⟨.content, text, items⟩ c =
            some ⟨.content, text ++ [c], items⟩ := by
          rw [Reader.feed, if_pos (ht c List.mem_cons_self)]
          dsimp only [Reader.step]
          rw [if_neg hlt, if_neg hamp]
        rw [hc, List.foldlM_cons, hfeed]
        rfl
    rw [escape_cons, List.foldlM_append, hone]
    refine (ih (fun d hd => ht d (List.mem_cons_of_mem _ hd)) (text ++ [c]) items).trans ?_
    rw [List.append_assoc]
    rfl

theorem foldlM_tag {tag : Text} (htag : IsTag tag) : ∀ (name text : Text) (items : List Item),
    (tag ++ ['>']).foldlM Reader.feed ⟨.tag name, text, items⟩ =
      some ⟨.content, [], items ++ [⟨text, name ++ tag⟩]⟩ := by
  induction tag with
  | nil =>
    intro name text items
    rw [List.append_nil]
    rfl
  | cons c tag ih =>
    intro name text items
    obtain ⟨hxml, hlt, hgt, -⟩ := htag c List.mem_cons_self
    have hfeed : Reader.feed ⟨.tag name, text, items⟩ c =
        some ⟨.tag (name ++ [c]), text, items⟩ := by
      rw [Reader.feed, if_pos hxml]
      dsimp only [Reader.step]
      rw [if_neg hgt, if_neg hlt]
    rw [List.cons_append, List.foldlM_cons, hfeed]
    refine (ih (fun d hd => htag d (List.mem_cons_of_mem _ hd)) (name ++ [c]) text items).trans ?_
    rw [List.append_assoc]
    rfl

/-- **What was rendered is read back.** -/
theorem foldlM_render {items : List Item} (htags : ∀ item ∈ items, IsTag item.tag)
    (htexts : ∀ item ∈ items, AllXml item.text) : ∀ before : List Item,
    (render items).foldlM Reader.feed ⟨.content, [], before⟩ =
      some ⟨.content, [], before ++ items⟩ := by
  induction items with
  | nil =>
    intro before
    rw [List.append_nil]
    rfl
  | cons item items ih =>
    intro before
    have htext := foldlM_escape (htexts item List.mem_cons_self) [] before
    have htag := foldlM_tag (htags item List.mem_cons_self) [] item.text before
    have hone : item.render.foldlM Reader.feed ⟨.content, [], before⟩ =
        some ⟨.content, [], before ++ [item]⟩ := by
      rw [Item.render, List.foldlM_append, htext]
      exact htag
    rw [render, List.flatMap_cons, List.foldlM_append, hone]
    refine (ih (fun i hi => htags i (List.mem_cons_of_mem _ hi))
      (fun i hi => htexts i (List.mem_cons_of_mem _ hi)) (before ++ [item])).trans ?_
    rw [List.append_assoc]
    rfl

theorem normalizeLines_render {items : List Item} (htags : ∀ item ∈ items, IsTag item.tag) :
    normalizeLines false (render items) = render (items.map Item.normalized) := by
  induction items with
  | nil => rfl
  | cons item items ih =>
    have htag : ∀ c ∈ item.tag ++ ['>'], c ≠ '\r' ∧ c ≠ '\n' := by
      intro c hc
      rcases List.mem_append.1 hc with hc | hc
      · exact (htags item List.mem_cons_self c hc).2.2.2
      · rw [List.mem_singleton.1 hc]
        decide
    rw [render, List.flatMap_cons, Item.render, List.append_assoc, List.cons_append,
      normalizeLines_escape, normalizeLines_plain htag _ _ (by simp), ← render,
      ih fun i hi => htags i (List.mem_cons_of_mem _ hi)]
    simp [render, Item.render, Item.normalized]

/-- Nothing but the line breaks of a text changes. -/
theorem mem_normalizeLines {c : Char} {t : Text} {b : Bool} (h : c ∈ normalizeLines b t) :
    c = '\n' ∨ c ∈ t := by
  induction t generalizing b with
  | nil => cases h
  | cons d t ih =>
    rw [normalizeLines] at h
    split at h
    · exact (ih h).imp_right (List.mem_cons_of_mem _)
    · rcases List.mem_cons.1 h with rfl | h
      · split
        · exact .inl rfl
        · exact .inr List.mem_cons_self
      · exact (ih h).imp_right (List.mem_cons_of_mem _)

theorem mem_normalizeLines_of_mem {c : Char} {t : Text} (h : c ∈ t) (hcr : c ≠ '\r')
    (hlf : c ≠ '\n') (b : Bool) : c ∈ normalizeLines b t := by
  induction t generalizing b with
  | nil => cases h
  | cons d t ih =>
    rw [normalizeLines]
    split
    · next hd =>
      rcases List.mem_cons.1 h with rfl | h
      · exact absurd hd.1 hlf
      · exact ih h _
    · rcases List.mem_cons.1 h with rfl | h
      · rw [if_neg hcr]
        exact List.mem_cons_self
      · exact List.mem_cons_of_mem _ (ih h _)

/-- A character that XML has not stays in the text. -/
theorem mem_escape_of_mem {c : Char} {t : Text} (h : c ∈ t) (hxml : isXmlChar c = false) :
    c ∈ escape t := by
  induction t with
  | nil => cases h
  | cons d t ih =>
    rw [escape_cons]
    rcases List.mem_cons.1 h with rfl | h
    · refine List.mem_append_left _ ?_
      rcases escape_singleton c with ⟨rfl, -⟩ | ⟨rfl, -⟩ | ⟨rfl, -⟩ | ⟨-, -, hc⟩
      · cases hxml
      · cases hxml
      · cases hxml
      · rw [hc]
        exact List.mem_cons_self
    · exact List.mem_append_right _ (ih h)

/-- A reader accepts characters of XML only. -/
theorem allXml_of_foldlM {t : Text} : ∀ {r r' : Reader}, t.foldlM Reader.feed r = some r' →
    AllXml t := by
  induction t with
  | nil => exact fun _ c hc => by cases hc
  | cons c t ih =>
    intro r r' h
    rw [List.foldlM_cons] at h
    obtain ⟨r₁, hfeed, h⟩ := Option.bind_eq_some_iff.1 h
    obtain ⟨hxml, -⟩ := Option.ite_none_right_eq_some.1 hfeed
    intro d hd
    rcases List.mem_cons.1 hd with rfl | hd
    · exact hxml
    · exact ih h d hd

/-- A name of letters. -/
def IsName (name : Text) : Prop := name ≠ [] ∧ ∀ c ∈ name, c.isAlpha = true

/-- Over the characters. -/
instance instDecidableIsName (name : Text) : Decidable (IsName name) :=
  @instDecidableAnd _ _ inferInstance (List.decidableBAll _ name)

/-- A text that can be written as it is. -/
def IsPlain (t : Text) : Prop := ∀ c ∈ t, isXmlChar c = true ∧ c ≠ '&' ∧ c ≠ '<' ∧ c ≠ '>'

/-- Over the characters. -/
instance instDecidableIsPlain (t : Text) : Decidable (IsPlain t) := List.decidableBAll _ t

theorem escape_eq_self {t : Text} (h : IsPlain t) : escape t = t := by
  induction t with
  | nil => rfl
  | cons c t ih =>
    have hone : escape [c] = [c] := by
      simp [escape, replaceChar, h c List.mem_cons_self]
    rw [escape_cons, hone, ih fun d hd => h d (List.mem_cons_of_mem _ hd)]
    rfl

theorem render_element (name text : Text) :
    render (element name text) = startTag name ++ escape text ++ endTag name := by
  show startTag name ++ (escape text ++ endTag name ++ []) = _
  rw [List.append_nil, List.append_assoc]

theorem render_tag (tag : Text) (items : List Item) :
    render (⟨[], tag⟩ :: items) = startTag tag ++ render items := rfl

theorem render_append (items others : List Item) :
    render (items ++ others) = render items ++ render others := List.flatMap_append

/-- Elements one after another. -/
theorem render_elements (fields : List (Text × Text)) :
    render (fields.flatMap fun field => element field.1 field.2) =
      fields.flatMap fun field => startTag field.1 ++ escape field.2 ++ endTag field.1 := by
  rw [render, List.flatMap_assoc]
  exact congrArg (List.flatMap · fields) (funext fun field => render_element _ _)

theorem isTag_of_alpha {name : Text} (h : ∀ c ∈ name, c.isAlpha = true) : IsTag name := by
  intro c hc
  have hletter : 65 ≤ c.toNat ∧ c.toNat ≤ 122 ∧ c.toNat ≠ 60 ∧ c.toNat ≠ 62 := by
    rw [Char.toNat]
    rcases Bool.or_eq_true_iff.1 (h c hc) with hupper | hlower
    · have hbounds : 65 ≤ c.val.toNat ∧ c.val.toNat ≤ 90 := of_decide_eq_true hupper
      omega
    · obtain ⟨hlow, hhigh⟩ := Bool.and_eq_true_iff.1 hlower
      have hlow : 97 ≤ c.val.toNat := of_decide_eq_true hlow
      have hhigh : c.val.toNat ≤ 122 := of_decide_eq_true hhigh
      omega
  have hne : ∀ d : Char, d.toNat < 65 → c ≠ d := by
    rintro d hd rfl
    omega
  refine ⟨?_, hne _ (by decide), hne _ (by decide), hne _ (by decide), hne _ (by decide)⟩
  simp only [isXmlChar, Bool.or_eq_true, Bool.and_eq_true, decide_eq_true_eq]
  omega

theorem IsName.isTag {name : Text} (h : IsName name) : IsTag name := isTag_of_alpha h.2

theorem IsName.isTag_end {name : Text} (h : IsName name) : IsTag ('/' :: name) := by
  intro c hc
  rcases List.mem_cons.1 hc with rfl | hc
  · decide
  · exact h.isTag c hc

/-- A start tag of a name opens an element. -/
theorem IsName.nests_start {name : Text} (h : IsName name) (opened tags : List Text) :
    nests opened (name :: tags) = nests (name :: opened) tags := by
  obtain ⟨hne, halpha⟩ := h
  have hname : tagName name = name := List.takeWhile_eq_self_iff.2 fun c hc =>
    decide_eq_true fun heq => by
      have hspace := halpha c hc
      rw [heq] at hspace
      cases hspace
  cases name with
  | nil => exact absurd rfl hne
  | cons c name =>
    have hc : c ≠ '?' ∧ c ≠ '/' := by
      constructor
      · rintro rfl
        cases halpha '?' List.mem_cons_self
      · rintro rfl
        cases halpha '/' List.mem_cons_self
    rw [nests, hname]
    · exact fun t heq => hc.1 (List.cons.inj heq).1
    · exact fun _ _ t _ heq => hc.2 (List.cons.inj heq).1
    · exact fun t _ heq => hc.2 (List.cons.inj heq).1

theorem nests_end (name : Text) (opened tags : List Text) :
    nests (name :: opened) (('/' :: name) :: tags) = nests opened tags := by
  rw [nests, decide_eq_true rfl, Bool.true_and]

theorem IsName.nests_element {name : Text} (h : IsName name) (text : Text)
    (opened tags : List Text) :
    nests opened ((element name text).map Item.tag ++ tags) = nests opened tags := by
  show nests opened (name :: ('/' :: name) :: tags) = _
  rw [h.nests_start, nests_end]

section Documents

variable {items : List Item} (htags : ∀ item ∈ items, IsTag item.tag)
  (hnests : nests [] (items.map Item.tag) = true)

include htags hnests

/-- A document is read back, whatever markup its texts look like. -/
theorem readXml_render (htexts : ∀ item ∈ items, AllXml item.text) :
    readXml (render items) = some (items.map Item.normalized) := by
  have hnormalized : ∀ item ∈ items.map Item.normalized, IsTag item.tag ∧ AllXml item.text := by
    intro item hitem
    obtain ⟨old, hold, rfl⟩ := List.mem_map.1 hitem
    refine ⟨htags old hold, fun c hc => ?_⟩
    rcases mem_normalizeLines hc with rfl | hc
    · decide
    · exact htexts old hold c hc
  have hfold := foldlM_render (fun item hitem => (hnormalized item hitem).1)
    (fun item hitem => (hnormalized item hitem).2) []
  have hsame : (items.map Item.normalized).map Item.tag = items.map Item.tag :=
    List.map_map.trans rfl
  rw [readXml, normalizeLines_render htags, hfold]
  dsimp only [Option.bind_some, List.nil_append]
  rw [if_pos ⟨rfl, hsame ▸ hnests⟩]

/-- One character that XML does not have, in any text, and nothing can be read. -/
theorem isSome_readXml :
    (readXml (render items)).isSome ↔ ∀ item ∈ items, AllXml item.text := by
  constructor
  · intro h item hitem c hc
    obtain ⟨read, hread⟩ := Option.isSome_iff_exists.1 h
    obtain ⟨r, hfold, -⟩ := Option.bind_eq_some_iff.1 hread
    have hall := allXml_of_foldlM hfold
    rw [normalizeLines_render htags] at hall
    by_contra hxml
    have hxml := Bool.eq_false_iff.2 hxml
    have hcr : c ≠ '\r' := fun heq => by rw [heq] at hxml; cases hxml
    have hlf : c ≠ '\n' := fun heq => by rw [heq] at hxml; cases hxml
    have hmem : c ∈ render (items.map Item.normalized) := by
      refine List.mem_flatMap.2 ⟨item.normalized, List.mem_map_of_mem hitem, ?_⟩
      exact List.mem_append_left _
        (mem_escape_of_mem (mem_normalizeLines_of_mem hc hcr hlf false) hxml)
    rw [hall c hmem] at hxml
    cases hxml
  · intro htexts
    rw [readXml_render htags hnests htexts]
    rfl

end Documents

end Xml

end Systems

end RealEstate
