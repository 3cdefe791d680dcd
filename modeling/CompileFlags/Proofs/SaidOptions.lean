import CompileFlags.Proofs.OptionSpellings
import CompileFlags.Proofs.Results

/-!
# What options say

What a command is told does not depend on how its options are spelled, nor on how those of different
kinds are mixed. Of the options of one kind the last one counts, an option that stands for itself
may be written as often as one likes, and patterns are kept in their order.

* `Said` — what an option says; `lastOf` — the last thing that was said about something.
* `ProjectSays`, `FlagsSays`, `CatalogSays` — how a command can be told so.
* `FlagsOptions.hear`, `ServeOptions.hear`, `CatalogOptions.hear` — what an option changes, and with
  `foldl_hear` what all options together come to.
* `flagsCommand_parts`, `serveCommand_parts`, `catalogCommand_parts` — what a command is told by
  arguments.
* `told_however_spelled` — the three of them together.
-/

namespace CompileFlags

namespace CommandLine

open CompileFlags.Utf8 (encode)

/-- What an option says. -/
inductive Said where
  | catalog (p : Path)
  | root (p : Path)
  | layout (l : Layout)
  | color (c : Color)
  | rule (r : Rule)
  | noCache

namespace Said

def catalog? : Said → Option Path
  | catalog p => some p
  | _ => none

def root? : Said → Option Path
  | root p => some p
  | _ => none

def layout? : Said → Option Layout
  | layout l => some l
  | _ => none

def color? : Said → Option Color
  | color c => some c
  | _ => none

def rule? : Said → Option Rule
  | rule r => some r
  | _ => none

def isNoCache : Said → Bool
  | noCache => true
  | _ => false

end Said

/-- The last thing that was said about something. -/
def lastOf {α : Type} (about : Said → Option α) (said : List Said) : Option α :=
  (said.filterMap about).getLast?

/-- What was said later counts. -/
theorem lastOf_cons {α : Type} (about : Said → Option α) (a : Said) (said : List Said) :
    lastOf about (a :: said) = (lastOf about said).or (about a) := by
  unfold lastOf
  cases h : about a with
  | none => rw [List.filterMap_cons_none h, Option.or_none]
  | some x =>
    rw [List.filterMap_cons_some h, List.getLast?_cons]
    cases (said.filterMap about).getLast? <;> rfl

/-! ## How it is said -/

/-- How a command is told where a project is found. -/
inductive ProjectSays : Said → List Bytes → Prop where
  | catalog {v : Bytes} {args : List Bytes} (h : Spelled (some 'c') "catalog" v args) :
    ProjectSays (.catalog (.ofBytes v)) args
  | root {v : Bytes} {args : List Bytes} (h : Spelled (some 'r') "root" v args) :
    ProjectSays (.root (.ofBytes v)) args

/-- How `flags` is told something. -/
inductive FlagsSays : Said → List Bytes → Prop where
  | project {a : Said} {args : List Bytes} (h : ProjectSays a args) : FlagsSays a args
  | layout {name : String} {l : Layout} {args : List Bytes} (hl : Layout.ofName name = .ok l)
    (h : Spelled (some 'f') "format" (encode name) args) : FlagsSays (.layout l) args
  | noCache : FlagsSays .noCache [encode "--no-cache"]

/-- How `catalog` is told something. -/
inductive CatalogSays : Said → List Bytes → Prop where
  | project {a : Said} {args : List Bytes} (h : ProjectSays a args) : CatalogSays a args
  | color {name : String} {c : Color} {args : List Bytes} (hc : Color.ofName name = .ok c)
    (h : Spelled none "color" (encode name) args) : CatalogSays (.color c) args
  | including {text : String} {p : Pattern} {args : List Bytes} (hp : Pattern.parse text = .ok p)
    (h : Spelled (some 'f') "filter" (encode text) args) : CatalogSays (.rule ⟨p, true⟩) args
  | excluding {text : String} {p : Pattern} {args : List Bytes} (hp : Pattern.parse text = .ok p)
    (h : Spelled (some 'F') "filter-not" (encode text) args) : CatalogSays (.rule ⟨p, false⟩) args

/-- An option for where a project is found, if a command has both of them. -/
theorem ProjectSays.changes {σ : Type} {g : Grammar σ} (change : Said → σ → σ)
    (hg : g.WellSpelled) (hcatalog : catalogOption (fun p => change (.catalog p)) ∈ g.options)
    (hroot : rootOption (fun p => change (.root p)) ∈ g.options) {a : Said} {args : List Bytes}
    (h : ProjectSays a args) : g.Changes (change a) args := by
  cases h with
  | catalog h => exact Grammar.changes_path hg hcatalog h
  | root h => exact Grammar.changes_path hg hroot h

/-! ## The flags of a file -/

/-- What `flags` makes of an option. -/
def FlagsOptions.hear (o : FlagsOptions) : Said → FlagsOptions
  | .catalog p => { o with catalog := some p }
  | .root p => { o with root := some p }
  | .layout l => { o with layout := l }
  | .noCache => { o with noCache := true }
  | _ => o

/-- What `flags` makes of options. -/
theorem FlagsOptions.foldl_hear (o : FlagsOptions) (said : List Said) :
    said.foldl hear o =
      { catalog := (lastOf Said.catalog? said).or o.catalog,
        root := (lastOf Said.root? said).or o.root,
        layout := (lastOf Said.layout? said).getD o.layout,
        noCache := o.noCache || said.any Said.isNoCache } := by
  induction said generalizing o with
  | nil => simp [lastOf]
  | cons a said ih =>
    rw [List.foldl_cons, ih]
    cases a <;>
      simp [hear, lastOf_cons, Said.catalog?, Said.root?, Said.layout?, Said.isNoCache]

theorem wellSpelled_flagsGrammar : flagsGrammar.WellSpelled :=
  ⟨by decide, by decide, by decide, by decide⟩

/-- An option of `flags`, however it is spelled. -/
theorem FlagsSays.changes {a : Said} {args : List Bytes} (h : FlagsSays a args) :
    flagsGrammar.Changes (OfFile.change fun o => o.hear a) args := by
  have hg := wellSpelled_flagsGrammar
  cases h with
  | project h =>
    exact h.changes (fun a => OfFile.change fun o => o.hear a) hg
      (by simp [flagsGrammar, FlagsOptions.hear]) (by simp [flagsGrammar, FlagsOptions.hear])
  | layout hl h =>
    exact Grammar.changes_choice (fun l => OfFile.change fun o => o.hear (.layout l)) hg
      (by simp [flagsGrammar, FlagsOptions.hear]) hl h
  | noCache =>
    have hs : Spelling.of (encode "--no-cache") = .long (encode "no-cache") none := rfl
    exact Grammar.read_switch (OfFile.change fun o : FlagsOptions => o.hear .noCache) hs rfl

theorem change_foldl_hear (c : OfFile FlagsOptions) (said : List Said) :
    said.foldl (fun c a => OfFile.change (fun o => o.hear a) c) c =
      { c with options := said.foldl FlagsOptions.hear c.options } := by
  induction said generalizing c with
  | nil => rfl
  | cons a said ih =>
    rw [List.foldl_cons, ih]
    rfl

/-- Options and a file between them, or in front of them, or behind them. -/
theorem flagsCommand_parts {before after : List Said} {beforeParts afterParts : List (List Bytes)}
    {file : String} (hbefore : List.Forall₂ FlagsSays before beforeParts)
    (hafter : List.Forall₂ FlagsSays after afterParts)
    (hfile : file = "-" ∨ file.toList.head? ≠ some '-') :
    flagsCommand ⟨false, beforeParts.flatten ++ encode file :: afterParts.flatten⟩ =
      .ok (file, (before ++ after).foldl FlagsOptions.hear {}) := by
  have hoperand (o : FlagsOptions) :
      flagsGrammar.operand (encode file) { options := o } = .ok ⟨some file, o⟩ := by
    show (textOf (encode file)).map _ = _
    rw [textOf_encode]
    rfl
  rw [flagsCommand, Grammar.readArguments, if_neg Bool.false_ne_true,
    Grammar.read_parts (hbefore.imp fun _ _ h => h.changes), change_foldl_hear,
    Grammar.read_operand (spelling_operand hfile), hoperand]
  show (flagsGrammar.read afterParts.flatten _).bind OfFile.complete = _
  rw [Grammar.read_flatten (hafter.imp fun _ _ h => h.changes), change_foldl_hear,
    List.foldl_append]
  rfl

/-! ## Answers to requests -/

/-- What `serve` makes of an option. -/
def ServeOptions.hear (o : ServeOptions) : Said → ServeOptions
  | .catalog p => { o with catalog := some p }
  | .root p => { o with root := some p }
  | _ => o

/-- What `serve` makes of options. -/
theorem ServeOptions.foldl_hear (o : ServeOptions) (said : List Said) :
    said.foldl hear o =
      { catalog := (lastOf Said.catalog? said).or o.catalog,
        root := (lastOf Said.root? said).or o.root } := by
  induction said generalizing o with
  | nil => simp [lastOf]
  | cons a said ih =>
    rw [List.foldl_cons, ih]
    cases a <;> simp [hear, lastOf_cons, Said.catalog?, Said.root?]

theorem wellSpelled_serveGrammar : serveGrammar.WellSpelled :=
  ⟨by decide, by decide, by decide, by decide⟩

/-- An option of `serve`, however it is spelled. -/
theorem ProjectSays.changes_serve {a : Said} {args : List Bytes} (h : ProjectSays a args) :
    serveGrammar.Changes (fun o => o.hear a) args :=
  h.changes (fun a o => o.hear a) wellSpelled_serveGrammar
    (by simp [serveGrammar, ServeOptions.hear]) (by simp [serveGrammar, ServeOptions.hear])

theorem serveCommand_parts {said : List Said} {parts : List (List Bytes)}
    (h : List.Forall₂ ProjectSays said parts) :
    serveCommand ⟨false, parts.flatten⟩ = .ok (said.foldl ServeOptions.hear {}) := by
  rw [serveCommand, Grammar.readArguments, if_neg Bool.false_ne_true]
  exact Grammar.read_flatten (h.imp fun _ _ h => h.changes_serve) {}

/-! ## The table of flags -/

/-- What `catalog` makes of an option. -/
def CatalogOptions.hear (o : CatalogOptions) : Said → CatalogOptions
  | .catalog p => { o with catalog := some p }
  | .root p => { o with root := some p }
  | .color c => { o with color := c }
  | .rule r => { o with filter := o.filter.push r }
  | _ => o

/-- What `catalog` makes of options. -/
theorem CatalogOptions.foldl_hear (o : CatalogOptions) (said : List Said) :
    said.foldl hear o =
      { catalog := (lastOf Said.catalog? said).or o.catalog,
        root := (lastOf Said.root? said).or o.root,
        color := (lastOf Said.color? said).getD o.color,
        filter := ⟨o.filter.rules ++ said.filterMap Said.rule?⟩ } := by
  induction said generalizing o with
  | nil => simp [lastOf]
  | cons a said ih =>
    rw [List.foldl_cons, ih]
    cases a <;>
      simp [hear, lastOf_cons, List.filterMap_cons, Said.catalog?, Said.root?, Said.color?,
        Said.rule?, Filter.push]

theorem wellSpelled_catalogGrammar : catalogGrammar.WellSpelled :=
  ⟨by decide, by decide, by decide, by decide⟩

/-- An option whose value is a pattern. -/
theorem changes_pattern {c : Char} {long : String} {includes : Bool}
    (hrule : patternOption c long includes ∈ catalogGrammar.options) {text : String} {p : Pattern}
    (hp : Pattern.parse text = .ok p) {args : List Bytes}
    (h : Spelled (some c) long (encode text) args) :
    catalogGrammar.Changes (fun o => o.hear (.rule ⟨p, includes⟩)) args := by
  refine Grammar.changes_spelled wellSpelled_catalogGrammar hrule rfl rfl ?_ h
  intro o
  rw [textValue_encode]
  show (inContext _ (o.filter.add includes text) >>= _) = _
  rw [Filter.add, hp]
  rfl

/-- An option of `catalog`, however it is spelled. -/
theorem CatalogSays.changes {a : Said} {args : List Bytes} (h : CatalogSays a args) :
    catalogGrammar.Changes (fun o => o.hear a) args := by
  have hg := wellSpelled_catalogGrammar
  cases h with
  | project h =>
    exact h.changes (fun a o => o.hear a) hg (by simp [catalogGrammar, CatalogOptions.hear])
      (by simp [catalogGrammar, CatalogOptions.hear])
  | color hc h =>
    exact Grammar.changes_choice (fun c o => o.hear (.color c)) hg
      (by simp [catalogGrammar, CatalogOptions.hear]) hc h
  | including hp h => exact changes_pattern (by simp [catalogGrammar]) hp h
  | excluding hp h => exact changes_pattern (by simp [catalogGrammar]) hp h

theorem catalogCommand_parts {said : List Said} {parts : List (List Bytes)}
    (h : List.Forall₂ CatalogSays said parts) :
    catalogCommand ⟨false, parts.flatten⟩ = .ok (said.foldl CatalogOptions.hear {}) := by
  rw [catalogCommand, Grammar.readArguments, if_neg Bool.false_ne_true]
  exact Grammar.read_flatten (h.imp fun _ _ h => h.changes) {}

/-! ## What commands are told -/

/-- **What a command is told does not depend on how it is told.** Options may be spelled in any of
their ways and follow each other in any order; for `flags`, a file that is no option stands anywhere
among them. Then the arguments are read. The catalog, the root, the layout and the color are the
ones that were named last, or else what they are without an option; flags may not be kept exactly if
that was said, and the filter has the rules of all patterns in their order. -/
theorem told_however_spelled :
    (∀ (before after : List Said) (beforeParts afterParts : List (List Bytes)) (file : String),
      List.Forall₂ FlagsSays before beforeParts → List.Forall₂ FlagsSays after afterParts →
      (file = "-" ∨ file.toList.head? ≠ some '-') →
      flagsCommand ⟨false, beforeParts.flatten ++ encode file :: afterParts.flatten⟩ =
        .ok (file, {
          catalog := lastOf Said.catalog? (before ++ after),
          root := lastOf Said.root? (before ++ after),
          layout := (lastOf Said.layout? (before ++ after)).getD .json,
          noCache := (before ++ after).any Said.isNoCache })) ∧
    (∀ (said : List Said) (parts : List (List Bytes)), List.Forall₂ ProjectSays said parts →
      serveCommand ⟨false, parts.flatten⟩ =
        .ok { catalog := lastOf Said.catalog? said, root := lastOf Said.root? said }) ∧
    ∀ (said : List Said) (parts : List (List Bytes)), List.Forall₂ CatalogSays said parts →
      catalogCommand ⟨false, parts.flatten⟩ =
        .ok {
          catalog := lastOf Said.catalog? said,
          root := lastOf Said.root? said,
          color := (lastOf Said.color? said).getD .auto,
          filter := ⟨said.filterMap Said.rule?⟩ } := by
  refine ⟨?_, ?_, ?_⟩
  · intro before after beforeParts afterParts file hbefore hafter hfile
    rw [flagsCommand_parts hbefore hafter hfile, FlagsOptions.foldl_hear]
    simp only [Option.or_none, Bool.false_or]
  · intro said parts h
    rw [serveCommand_parts h, ServeOptions.foldl_hear]
    simp only [Option.or_none]
  · intro said parts h
    rw [catalogCommand_parts h, CatalogOptions.foldl_hear]
    simp only [Option.or_none, List.nil_append]

/-- Whether a text is read as a pattern is found out by reading it. -/
theorem exists_parse_of_isSome {text : String} (h : (Pattern.parse text).toOption.isSome = true) :
    ∃ p, Pattern.parse text = .ok p := by
  obtain ⟨p, hp⟩ := Option.isSome_iff_exists.1 h
  exact ⟨p, toOption_eq_some_iff.1 hp⟩

/-- Values that look like options, or like the two hyphens, or are empty, are values like others,
and the same letter is a layout for one command and a pattern for another. -/
theorem told_with_values_like_options :
    flagsCommand ⟨false, ["-c", "--", "--root=-f", "-f=lines", "-", "--catalog=", "--no-cache",
        "-r-", "--format", "json"].map encode⟩ =
      .ok ("-", {
        catalog := some (.ofBytes []),
        root := some (.ofBytes (encode "-")),
        layout := .json,
        noCache := true }) ∧
    serveCommand ⟨false, ["--root", "--catalog", "-c-r"].map encode⟩ =
      .ok {
        catalog := some (.ofBytes (encode "-r")),
        root := some (.ofBytes (encode "--catalog")) } ∧
    ∃ p q, Pattern.parse "-f" = .ok p ∧ Pattern.parse "" = .ok q ∧
      catalogCommand ⟨false, ["-f", "-f", "--color=never", "--filter-not="].map encode⟩ =
        .ok { color := .never, filter := ⟨[⟨p, true⟩, ⟨q, false⟩]⟩ } := by
  obtain ⟨hflags, hserve, hcatalog⟩ := told_however_spelled
  obtain ⟨p, hp⟩ := exists_parse_of_isSome (show (Pattern.parse "-f").toOption.isSome = true by
    decide +kernel)
  obtain ⟨q, hq⟩ := exists_parse_of_isSome (show (Pattern.parse "").toOption.isSome = true by
    decide +kernel)
  have hlines : Layout.ofName "lines" = .ok .lines := rfl
  have hjson : Layout.ofName "json" = .ok .json := rfl
  have hnever : Color.ofName "never" = .ok .never := rfl
  refine ⟨?_, ?_, p, q, hp, hq, ?_⟩
  · have hbefore : List.Forall₂ FlagsSays
        [.catalog (.ofBytes (encode "--")), .root (.ofBytes (encode "-f")), .layout .lines] _ :=
      .cons (.project (.catalog (.letter rfl))) (.cons (.project (.root .nameEquals))
        (.cons (.layout hlines (.letterEquals rfl)) .nil))
    have hafter : List.Forall₂ FlagsSays
        [.catalog (.ofBytes []), .noCache, .root (.ofBytes (encode "-")), .layout .json] _ :=
      .cons (.project (.catalog .nameEquals)) (.cons .noCache
        (.cons (.project (.root (.letterJoined rfl (by decide) (by decide))))
          (.cons (.layout hjson .name) .nil)))
    exact hflags _ _ _ _ "-" hbefore hafter (.inl rfl)
  · have hsaid : List.Forall₂ ProjectSays
        [.root (.ofBytes (encode "--catalog")), .catalog (.ofBytes (encode "-r"))] _ :=
      .cons (.root .name) (.cons (.catalog (.letterJoined rfl (by decide) (by decide))) .nil)
    exact hserve _ _ hsaid
  · have hsaid : List.Forall₂ CatalogSays
        [.rule ⟨p, true⟩, .color .never, .rule ⟨q, false⟩] _ :=
      .cons (.including hp (.letter rfl)) (.cons (.color hnever .nameEquals)
        (.cons (.excluding hq .nameEquals) .nil))
    exact hcatalog _ _ hsaid

end CommandLine

end CompileFlags
