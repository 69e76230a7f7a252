import Polyadic.Proofs.Template.DepthFirst

/-!
# Templates over known names

A template that is written with inert characters and with placeholders of known names only (`Supported`)
resolves whenever the live scopes say what these names mean, and what it becomes is inert again
(`Provides.resolves`). The names are listed so that the text of each is written with the names behind it
(`Offers`), which rules out cycles; further scopes that do not touch them leave them what they are
(`Provides.push`, `Provides.bind`).

`scan` runs through a text to see that it is supported (`Supported.of_scan`).
-/

namespace Polyadic.Template

/-- A character that belongs to no placeholder and no block and ends no line. -/
def isInert (c : Char) : Bool :=
  c != '$' && c != '\x7b' && c != '\x7d' && c != '\n'

/-- A text of such characters. -/
def IsInert (text : String) : Prop :=
  ∀ c ∈ text.toList, isInert c = true

/-- Inert characters and placeholders of known names, one after the other. -/
inductive Supported (known : List String) : List Char → Prop where
  | nil :
    Supported known []
  | inert {c rest} :
    isInert c = true →
    Supported known rest →
    Supported known (c :: rest)
  | token {name rest} :
    name ∈ known →
    name.toList ≠ [] →
    '$' ∉ name.toList →
    Supported known rest →
    Supported known ('$' :: (name.toList ++ '$' :: rest))

section Inert

variable {c : Char} {text text' : String}

lemma ne_of_isInert (h : isInert c = true) : c ≠ '$' ∧ c ≠ '\x7b' ∧ c ≠ '\x7d' ∧ c ≠ '\n' := by
  simp only [isInert, Bool.and_eq_true, bne_iff_ne] at h
  obtain ⟨⟨⟨dollar, opening⟩, closing⟩, feed⟩ := h
  exact ⟨dollar, opening, closing, feed⟩

lemma IsInert.append (h : IsInert text) (h' : IsInert text') : IsInert (text ++ text') := by
  unfold IsInert
  rw [String.toList_append, List.forall_mem_append]
  exact ⟨h, h'⟩

/-- What is written out in a program is seen to be inert by looking at its characters. -/
lemma IsInert.of_chars {chars : List Char} (written : text = String.ofList chars)
    (h : chars.all isInert = true) : IsInert text := by
  unfold IsInert
  rw [written, String.toList_ofList]
  exact List.all_eq_true.mp h

/-- What carries over to texts written one behind the other carries over to a list of texts with its separators. -/
lemma intercalate_induction {P : String → Prop} {separator : String} {texts : List String}
    (append : ∀ {text text' : String}, P text → P text' → P (text ++ text')) (empty : P "")
    (separates : P separator) (h : ∀ text ∈ texts, P text) : P (String.intercalate separator texts) := by
  induction texts with
  | nil => exact empty
  | cons first rest ih =>
    obtain ⟨hfirst, hrest⟩ := List.forall_mem_cons.mp h
    by_cases single : rest = []
    · rw [single, String.intercalate_singleton]
      exact hfirst
    · rw [String.intercalate_cons_of_ne_nil single]
      exact append (append hfirst separates) (ih hrest)

lemma IsInert.intercalate {texts : List String} (separator : IsInert text)
    (h : ∀ text ∈ texts, IsInert text) : IsInert (String.intercalate text texts) :=
  intercalate_induction .append nofun separator h

end Inert

namespace Supported

variable {known : List String} {chars : List Char}

lemma append {text text' : String} (h : Supported known text.toList)
    (h' : Supported known text'.toList) : Supported known (text ++ text').toList := by
  rw [String.toList_append]
  generalize text.toList = chars at h ⊢
  induction h with
  | nil => exact h'
  | inert hc _ ih => exact .inert hc ih
  | token hname nonempty plain _ ih =>
    rw [List.cons_append, List.append_assoc, List.cons_append]
    exact .token hname nonempty plain ih

lemma of_isInert {text : String} (h : IsInert text) : Supported known text.toList := by
  unfold IsInert at h
  revert h
  induction text.toList with
  | nil => exact fun _ => .nil
  | cons c rest ih =>
    intro h
    obtain ⟨hc, hrest⟩ := List.forall_mem_cons.mp h
    exact .inert hc (ih hrest)

lemma wellDelimited (h : Supported known chars) : WellDelimited chars := by
  induction h with
  | nil => exact ⟨[], rfl⟩
  | @inert c rest hc _ ih =>
    obtain ⟨ps, rfl⟩ := ih
    have plain : '$' ∉ [c] := mt List.mem_singleton.mp (ne_of_isInert hc).1.symm
    exact ⟨.literal [c] plain :: ps, text_cons _ ps⟩
  | @token name rest _ nonempty plain _ ih =>
    obtain ⟨ps, rfl⟩ := ih
    refine ⟨.token name nonempty plain :: ps, ?_⟩
    rw [text_cons, Piece.text, List.cons_append, List.append_assoc, List.singleton_append]

/-! ## Looking through a text -/

/-- Whether a text is supported; behind a dollar sign, `name?` is what was read of the name, backwards. -/
def scan (known : List String) (name? : Option (List Char)) : List Char → Bool
  | [] => name?.isNone
  | c :: rest =>
    match name? with
    | none => if c = '$' then scan known (some []) rest else isInert c && scan known none rest
    | some name =>
      if c = '$' then !name.isEmpty && known.contains (String.ofList name.reverse) && scan known none rest
      else scan known (some (c :: name)) rest

lemma of_scan (chars : List Char) :
    (scan known none chars = true → Supported known chars) ∧
      ∀ name, '$' ∉ name → scan known (some name) chars = true →
        Supported known ('$' :: (name.reverse ++ chars)) := by
  -- Each dollar sign leads from one half of the statement into the other.
  induction chars with
  | nil => exact ⟨fun _ => .nil, fun _ _ h => nomatch h⟩
  | cons c rest ih =>
    obtain ⟨outside, behind⟩ := ih
    constructor
    · intro h
      rw [scan] at h
      split at h
      · rename_i dollar
        rw [dollar]
        exact behind [] List.not_mem_nil h
      · obtain ⟨hc, hrest⟩ := Bool.and_eq_true_iff.mp h
        exact .inert hc (outside hrest)
    · intro name plain h
      rw [scan] at h
      split at h
      · rename_i dollar
        simp only [Bool.and_eq_true, Bool.not_eq_true', List.isEmpty_eq_false_iff,
          List.contains_iff_mem] at h
        obtain ⟨⟨nonempty, hname⟩, hrest⟩ := h
        have chars : (String.ofList name.reverse).toList = name.reverse := String.toList_ofList
        have token := Supported.token hname (by rwa [chars, ne_eq, List.reverse_eq_nil_iff])
          (by rwa [chars, List.mem_reverse]) (outside hrest)
        rw [chars] at token
        rwa [dollar]
      · rename_i other
        have longer := behind (c :: name) (by simp [plain, Ne.symm other]) h
        rwa [List.reverse_cons, List.append_assoc, List.singleton_append] at longer

/-- What is written out in a program is seen to be supported by looking through its characters. -/
lemma of_chars {template : String} (written : template = String.ofList chars)
    (h : scan known none chars = true) : Supported known template.toList := by
  rw [written, String.toList_ofList]
  exact (of_scan chars).1 h

end Supported

/-! ## Names with a meaning -/

/-- The scopes bind the names, and the text of each is written with the names behind it. -/
inductive Offers (scopes : Scopes) : List String → Prop where
  | nil :
    Offers scopes []
  | cons {name value known} :
    name ∉ known →
    scopes.lookup name = some value →
    Supported known value.toList →
    Offers scopes known →
    Offers scopes (name :: known)

/-- Met outside a path, the name is replaced by inert text. -/
def Means (scopes : Scopes) (path : List String) (name : String) : Prop :=
  name ∉ path ∧ ∃ value meaning, scopes.lookup name = some value ∧
    Evaluates scopes (name :: path) (pieces value.toList) meaning ∧ ∀ c ∈ meaning, isInert c = true

variable {scopes : Scopes} {known : List String}

lemma Supported.evaluates {path : List String} {chars : List Char} (h : Supported known chars)
    (means : ∀ name ∈ known, Means scopes path name) :
    ∃ meaning, Evaluates scopes path (pieces chars) meaning ∧ ∀ c ∈ meaning, isInert c = true := by
  induction h with
  | nil => exact ⟨[], by rw [pieces]; exact .nil, nofun⟩
  | @inert c rest hc _ ih =>
    obtain ⟨meaning, evaluates, inert⟩ := ih
    have plain : '$' ∉ [c] := mt List.mem_singleton.mp (ne_of_isInert hc).1.symm
    refine ⟨[c] ++ meaning, ?_, List.forall_mem_cons.mpr ⟨hc, inert⟩⟩
    rw [pieces_cons plain]
    exact .literal evaluates
  | @token name rest hname nonempty plain _ ih =>
    obtain ⟨meaning, evaluates, inert⟩ := ih
    obtain ⟨fresh, value, inner, found, evaluates', inert'⟩ := means name hname
    refine ⟨inner ++ meaning, ?_, List.forall_mem_append.mpr ⟨inert', inert⟩⟩
    rw [pieces_token nonempty plain]
    exact .token fresh found evaluates' evaluates

/-- Text without placeholders stays what it is in front of what is evaluated. -/
lemma Evaluates.append {path : List String} {front chars meaning : List Char} (plain : '$' ∉ front)
    (evaluates : Evaluates scopes path (pieces chars) meaning) :
    Evaluates scopes path (pieces (front ++ chars)) (front ++ meaning) := by
  induction front with
  | nil => exact evaluates
  | cons c front ih =>
    obtain ⟨hc, hfront⟩ := not_or.mp (mt List.mem_cons.mpr plain)
    rw [List.cons_append, pieces_cons (mt List.mem_singleton.mp hc)]
    exact .literal (ih hfront)

lemma Evaluates.of_plain {path : List String} {chars : List Char} (plain : '$' ∉ chars) :
    Evaluates scopes path (pieces chars) chars := by
  have nothing : Evaluates scopes path (pieces []) [] := by
    rw [pieces]
    exact .nil
  have whole := nothing.append plain
  rwa [List.append_nil] at whole

/-- The names are evaluated from the last one on; none of them is met on the way to itself. -/
lemma Offers.means (offers : Offers scopes known) {path : List String}
    (apart : ∀ name ∈ known, name ∉ path) : ∀ name ∈ known, Means scopes path name := by
  induction offers generalizing path with
  | nil => exact nofun
  | @cons name value known fresh found supported _ ih =>
    rw [List.forall_mem_cons] at apart ⊢
    obtain ⟨hname, hknown⟩ := apart
    refine ⟨⟨hname, value, ?_⟩, ih hknown⟩
    -- The text of the name uses the names behind it only, and it is not one of them.
    have deeper : ∀ other ∈ known, Means scopes (name :: path) other := by
      refine ih fun other hother => List.not_mem_cons_of_ne_of_not_mem ?_ (hknown other hother)
      rintro rfl
      exact fresh hother
    obtain ⟨meaning, evaluates, inert⟩ := supported.evaluates deeper
    exact ⟨meaning, found, evaluates, inert⟩

/-- Names of inert texts may be listed in any order. -/
lemma Offers.of_isInert (distinct : known.Nodup)
    (h : ∀ name ∈ known, ∃ value, scopes.lookup name = some value ∧ IsInert value) :
    Offers scopes known := by
  induction known with
  | nil => exact .nil
  | cons name known ih =>
    obtain ⟨fresh, distinct⟩ := List.nodup_cons.mp distinct
    obtain ⟨⟨value, found, inert⟩, h⟩ := List.forall_mem_cons.mp h
    exact .cons fresh found (.of_isInert inert) (ih distinct h)

/-- The scopes give every one of the names a meaning. -/
structure Provides (scopes : Scopes) (known : List String) : Prop where
  wellBound : WellBound scopes
  offers : Offers scopes known

namespace Provides

lemma means (provides : Provides scopes known) : ∀ name ∈ known, Means scopes [] name :=
  provides.offers.means fun _ _ => List.not_mem_nil

lemma resolve_of_evaluates (provides : Provides scopes known) {template : String} {meaning : List Char}
    (h : Supported known template.toList) (evaluates : Evaluates scopes [] (pieces template.toList) meaning) :
    resolve scopes template = .ok (String.ofList meaning) := by
  have apart : template.toList = text (pieces template.toList) ++ [] := by
    rw [text_pieces h.wellDelimited, List.append_nil]
  rw [resolve_eq_evaluate provides.wellBound (.inl rfl) apart, evaluates.ok]
  show Except.ok (String.ofList (meaning ++ [])) = _
  rw [List.append_nil]

/-- A supported template resolves, to inert text. -/
theorem resolves (provides : Provides scopes known) {template : String}
    (h : Supported known template.toList) :
    ∃ text, resolve scopes template = .ok text ∧ IsInert text := by
  obtain ⟨meaning, evaluates, inert⟩ := h.evaluates provides.means
  refine ⟨String.ofList meaning, provides.resolve_of_evaluates h evaluates, ?_⟩
  unfold IsInert
  rwa [String.toList_ofList]

/-- What stands around the first placeholder of a template stands around the text of its name. -/
theorem resolve_placeholder (provides : Provides scopes known) {template name value : String}
    {front middle rest : List Char} (supported : Supported known template.toList)
    (written : template.toList = front ++ '$' :: (name.toList ++ '$' :: (middle ++ rest)))
    (nonempty : name.toList ≠ []) (plain : '$' ∉ name.toList)
    (found : scopes.lookup name = some value) (hvalue : '$' ∉ value.toList)
    (hfront : '$' ∉ front) (hmiddle : '$' ∉ middle) (hrest : Supported known rest) :
    ∃ back, resolve scopes template =
      .ok (String.ofList (front ++ (value.toList ++ (middle ++ back)))) := by
  obtain ⟨back, evaluates, _⟩ := hrest.evaluates provides.means
  have whole : Evaluates scopes [] (pieces template.toList)
      (front ++ (value.toList ++ (middle ++ back))) := by
    rw [written]
    refine .append hfront ?_
    rw [pieces_token nonempty plain]
    exact .token List.not_mem_nil found (.of_plain hvalue) (.append hmiddle evaluates)
  exact ⟨back, provides.resolve_of_evaluates supported whole⟩

/-- A scope whose texts are well-delimited and which binds none of the names. -/
lemma push (provides : Provides scopes known) {scope : Scope}
    (values : ∀ name value, scope.get? name = some value → WellDelimited value.toList)
    (apart : ∀ name ∈ known, scope.get? name = none) : Provides (scope :: scopes) known := by
  obtain ⟨wellBound, offers⟩ := provides
  constructor
  · intro name value found
    rw [Scopes.lookup_cons, Option.or_eq_some_iff] at found
    obtain here | ⟨_, further⟩ := found
    · exact values name value here
    · exact wellBound name value further
  · induction offers with
    | nil => exact .nil
    | @cons name value known fresh found supported _ ih =>
      obtain ⟨hname, hknown⟩ := List.forall_mem_cons.mp apart
      refine .cons fresh ?_ supported (ih hknown)
      rw [Scopes.lookup_cons, hname, Option.none_or, found]

/-- A scope that binds one more name. -/
lemma bind (provides : Provides scopes known) {name value : String} (fresh : name ∉ known)
    (supported : Supported known value.toList) :
    Provides (.ofList [(name, value)] :: scopes) (name :: known) := by
  have distinct : ([(name, value)].map Prod.fst).Nodup := List.nodup_singleton name
  have pushed : Provides (.ofList [(name, value)] :: scopes) known := by
    refine provides.push ?_ ?_
    · intro other text found
      rw [Scope.get?_ofList distinct] at found
      obtain ⟨_, rfl⟩ := Prod.mk.inj (List.mem_singleton.mp (Assoc.mem_of_lookup found))
      exact supported.wellDelimited
    · intro other hother
      rw [Scope.get?_ofList distinct, List.lookup_eq_none_iff]
      intro pair hpair
      rw [List.mem_singleton.mp hpair, bne_iff_ne]
      rintro rfl
      exact fresh hother
  refine ⟨pushed.wellBound, .cons fresh ?_ supported pushed.offers⟩
  rw [Scopes.lookup, List.findSome?_cons, Scope.get?_ofList distinct,
    Assoc.lookup_of_mem distinct List.mem_cons_self]

end Provides

end Polyadic.Template
