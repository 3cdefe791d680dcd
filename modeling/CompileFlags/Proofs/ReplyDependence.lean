import CompileFlags.Proofs.RequestShape
import CompileFlags.Proofs.ServedLines

/-!
# What a reply depends on

A request asks for the leaf of a file's name, with the cache option if there is one. Two requests
that ask the same have the same reply, byte for byte: neither the directory of the file, nor members
that are not understood, nor the way the request is written gets into the reply. Two inputs that ask
the same line by line make the same session.

* `Project.answer_congr` — the answer is a function of what is asked.
* `Request.questionOf?_congr` — what is asked depends on the members that are understood only.
* `Project.serve_congr` — sessions on inputs that ask the same.
* `Project.reply_depends_on_question` — all of this for replies.
-/

namespace CompileFlags

open Json

/-! ## What is asked -/

/-- What a request asks: the leaf of the file's name, and the cache option. -/
def Request.question (r : Request) : String × Option Bool :=
  (FileName.leaf r.filename, r.options.cache)

theorem Request.question_eq_iff {r r' : Request} :
    r.question = r'.question ↔
      FileName.leaf r.filename = FileName.leaf r'.filename ∧
        r.options.cache = r'.options.cache := by
  simp [question]

/-- Two lines are requests that ask the same. -/
def SameQuestion (line line' : Bytes) : Prop :=
  ∃ r r', Request.ofLine line = .ok r ∧ Request.ofLine line' = .ok r' ∧ r.question = r'.question

theorem Language.ofFile_congr {file file' : String} (cFiles : List String)
    (h : FileName.leaf file = FileName.leaf file') : ofFile file cFiles = ofFile file' cFiles := by
  rw [ofFile, ofFile, h]

namespace Project

/-- The answer is a function of what is asked. -/
theorem answer_congr (p : Project) {r r' : Request} (h : r.question = r'.question) :
    p.answer r = p.answer r' := by
  obtain ⟨hleaf, hcache⟩ := Request.question_eq_iff.1 h
  have hlanguage : p.languageOf r.filename = p.languageOf r'.filename :=
    Language.ofFile_congr p.catalog.cFiles hleaf
  rw [answer, answer, hlanguage, hcache]

theorem replyLine_congr (p : Project) {line line' : Bytes} (h : SameQuestion line line') :
    p.replyLine line = p.replyLine line' := by
  obtain ⟨r, r', hr, hr', hquestion⟩ := h
  have hreply : p.reply line = p.reply line' := by
    simp only [reply, hr, hr', p.answer_congr hquestion]
  rw [replyLine, replyLine, hreply]

/-! ## Sessions that ask the same -/

theorem map_replyLine_congr (p : Project) {lines lines' : List Bytes}
    (h : List.Forall₂ SameQuestion lines lines') :
    lines.map p.replyLine = lines'.map p.replyLine := by
  induction h with
  | nil => rfl
  | cons hline _ ih => rw [List.map_cons, List.map_cons, p.replyLine_congr hline, ih]

/-- Inputs that ask the same line by line have the same output, on every output, and their sessions
end in the same way. -/
theorem serve_congr (p : Project) {data data' : Bytes}
    (h : List.Forall₂ SameQuestion (requestLines data) (requestLines data')) (sink : Sink) :
    (p.serve { data } sink).output = (p.serve { data := data' } sink).output ∧
      (p.serve { data } sink).ending = (p.serve { data := data' } sink).ending := by
  have hdelivered : ∀ data, (p.serve { data } sink).output =
        (sink.deliver (p.replyLines data)).taken ∧
      (p.serve { data } sink).ending =
        endingOf none (sink.deliver (p.replyLines data)).failure := by
    intro data
    rw [serve_eq, ← map_replyLine_numberedRequests]
    exact ⟨rfl, rfl⟩
  have hlines : p.replyLines data = p.replyLines data' := p.map_replyLine_congr h
  obtain ⟨houtput, hending⟩ := hdelivered data
  obtain ⟨houtput', hending'⟩ := hdelivered data'
  rw [houtput, hending, houtput', hending', hlines]
  exact ⟨rfl, rfl⟩

end Project

/-! ## What is written for the members that are understood -/

namespace Json

/-- A member with another key is not written for this one. -/
theorem writtenFor_insert {key k : String} (h : k ≠ key) (o : Outline)
    (before after : List (String × Outline)) :
    writtenFor key (before ++ (k, o) :: after) = writtenFor key (before ++ after) := by
  rw [writtenFor_append, writtenFor_append, writtenFor_cons, if_neg h]

end Json

/-- The cache option that is written among the members of options. -/
def Options.cacheOf? (members : List (String × Outline)) : Option (Option Bool) :=
  (field? Outline.flag? none (writtenFor "cache" members)).map fun cache => cache.getD none

theorem Options.map_cache_ofOutlines? (members : List (String × Outline)) :
    (ofOutlines? members).map Options.cache = cacheOf? members := by
  rw [ofOutlines?, cacheOf?, Option.map_map]
  rfl

namespace Request

/-- What is asked by the members of an object. -/
def questionOf? (members : List (String × Outline)) : Option (String × Option Bool) :=
  (field? (fun o => o.text?.map FileName.leaf) none (writtenFor "filename" members)).bind
    fun leaf =>
  (field? (fun o => o.members?.bind Options.cacheOf?) none (writtenFor "options" members)).bind
    fun cache =>
  leaf.map fun leaf => (leaf, cache.getD none)

theorem map_question_ofOutlines? (members : List (String × Outline)) :
    (ofOutlines? members).map question = questionOf? members := by
  have hcache : (fun o : Outline => o.members?.bind Options.cacheOf?) =
      fun o => (o.members?.bind Options.ofOutlines?).map Options.cache := by
    funext o
    cases o.members? with
    | none => rfl
    | some ms => exact (Options.map_cache_ofOutlines? ms).symm
  rw [ofOutlines?, questionOf?, hcache, ← field?_map, ← field?_map]
  cases field? Outline.text? none (writtenFor "filename" members) with
  | none => rfl
  | some filename =>
    cases field? (fun o => o.members?.bind Options.ofOutlines?) none
      (writtenFor "options" members) with
    | none => rfl
    | some options =>
      cases filename with
      | none => rfl
      | some filename => cases options <;> rfl

/-- Two names of a file are the same but for the directory. -/
def SameName (x y : Outline) : Prop :=
  x = y ∨ ∃ s t, x = .scalar (.text s) ∧ y = .scalar (.text t) ∧ FileName.leaf s = FileName.leaf t

/-- Two options are the same but for members that are not understood. -/
def SameOptions (x y : Outline) : Prop :=
  x = y ∨ ∃ ms ms', x = .object ms ∧ y = .object ms' ∧
    writtenFor "cache" ms = writtenFor "cache" ms'

/-- The members of two objects ask the same: they are the same but for the directory of the file,
for members that are not understood, in the request and in its options, and for the order. -/
structure SameUnderstood (a b : List (String × Outline)) : Prop where
  filename : List.Forall₂ SameName (writtenFor "filename" a) (writtenFor "filename" b)
  options : List.Forall₂ SameOptions (writtenFor "options" a) (writtenFor "options" b)

theorem questionOf?_congr {a b : List (String × Outline)} (h : SameUnderstood a b) :
    questionOf? a = questionOf? b := by
  have hname : field? (fun o => o.text?.map FileName.leaf) none (writtenFor "filename" a) =
      field? (fun o => o.text?.map FileName.leaf) none (writtenFor "filename" b) := by
    apply field?_congr
    refine h.filename.imp ?_
    rintro x y (rfl | ⟨s, t, rfl, rfl, hleaf⟩)
    · rfl
    · simp [Outline.text?, hleaf]
  have hoptions : field? (fun o => o.members?.bind Options.cacheOf?) none
        (writtenFor "options" a) =
      field? (fun o => o.members?.bind Options.cacheOf?) none (writtenFor "options" b) := by
    apply field?_congr
    refine h.options.imp ?_
    rintro x y (rfl | ⟨ms, ms', rfl, rfl, hcache⟩)
    · rfl
    · simp [Outline.members?, Options.cacheOf?, hcache]
  rw [questionOf?, questionOf?, hname, hoptions]

theorem sameName_refl (xs : List Outline) : List.Forall₂ SameName xs xs :=
  List.forall₂_same.2 fun _ _ => .inl rfl

theorem sameOptions_refl (xs : List Outline) : List.Forall₂ SameOptions xs xs :=
  List.forall₂_same.2 fun _ _ => .inl rfl

/-- A member of a request that is not understood can be added anywhere. -/
theorem sameUnderstood_insert {key : String} (hkey : key ∉ known) (o : Outline)
    (before after : List (String × Outline)) :
    SameUnderstood (before ++ after) (before ++ (key, o) :: after) := by
  have hfilename : key ≠ "filename" := fun h => hkey (mem_known_iff.2 (.inl h))
  have hoptions : key ≠ "options" := fun h => hkey (mem_known_iff.2 (.inr h))
  constructor
  · rw [writtenFor_insert hfilename]
    exact sameName_refl _
  · rw [writtenFor_insert hoptions]
    exact sameOptions_refl _

/-- A member of the options that is not understood can be added anywhere. -/
theorem sameUnderstood_insert_option {key : String} (hkey : key ≠ "cache") (o : Outline)
    (before after first last : List (String × Outline)) :
    SameUnderstood (before ++ ("options", .object (first ++ last)) :: after)
      (before ++ ("options", .object (first ++ (key, o) :: last)) :: after) := by
  constructor
  · rw [writtenFor_insert (by decide), writtenFor_insert (by decide)]
    exact sameName_refl _
  · rw [writtenFor_append, writtenFor_append, writtenFor_cons, writtenFor_cons, if_pos rfl,
      if_pos rfl]
    refine List.rel_append (sameOptions_refl _) (.cons (.inr ⟨_, _, rfl, rfl, ?_⟩)
      (sameOptions_refl _))
    exact (writtenFor_insert hkey o first last).symm

/-- What a text asks is what its outline asks. -/
theorem map_question_ofText {text : String} {members : List (String × Outline)}
    (h : Outline.ofText? text = some (.object members)) :
    (ofText text).toOption.map question = questionOf? members := by
  rw [toOption_ofText h, ← map_question_ofOutlines?]
  rfl

/-- If a text is a request, so is a text with the same members that are understood, and it asks the
same. -/
theorem exists_ofText_of_sameUnderstood {text text' : String}
    {members members' : List (String × Outline)}
    (h : Outline.ofText? text = some (.object members))
    (h' : Outline.ofText? text' = some (.object members'))
    (hsame : SameUnderstood members members') {r : Request} (hr : ofText text = .ok r) :
    ∃ r', ofText text' = .ok r' ∧ r'.question = r.question := by
  have hquestion := map_question_ofText h
  rw [questionOf?_congr hsame, ← map_question_ofText h', hr] at hquestion
  obtain ⟨r', hr', hsame⟩ := Option.map_eq_some_iff.1 hquestion.symm
  exact ⟨r', toOption_eq_some_iff.1 hr', hsame⟩

end Request

/-! ## Replies -/

namespace Project

theorem replyLine_of_sameUnderstood (p : Project) {text text' : String}
    {members members' : List (String × Outline)}
    (h : Outline.ofText? text = some (.object members))
    (h' : Outline.ofText? text' = some (.object members'))
    (hsame : Request.SameUnderstood members members') {r : Request}
    (hr : Request.ofText text = .ok r) :
    (∃ r', Request.ofText text' = .ok r') ∧
      p.replyLine (Utf8.encode text') = p.replyLine (Utf8.encode text) := by
  obtain ⟨r', hr', hquestion⟩ := Request.exists_ofText_of_sameUnderstood h h' hsame hr
  refine ⟨⟨r', hr'⟩, p.replyLine_congr ⟨r', r, ?_, ?_, hquestion⟩⟩
  · exact (ofLine_eq_ok_iff _ _).2 ⟨text', rfl, hr'⟩
  · exact (ofLine_eq_ok_iff _ _).2 ⟨text, rfl, hr⟩

/-- **A reply depends on the leaf of the file's name and the cache option only.** Two lines that are
requests for the same leaf with the same option are answered by the same bytes. So are two texts
with the same members that are understood, whatever else is in them and however they are written: if
one is a request, so is the other. In particular a member that is not understood can be added
anywhere, to the request or to its options. Two inputs that ask the same line by line make the same
session on every output. -/
theorem reply_depends_on_question (p : Project) :
    (∀ line line' r r', Request.ofLine line = .ok r → Request.ofLine line' = .ok r' →
      FileName.leaf r.filename = FileName.leaf r'.filename →
      r.options.cache = r'.options.cache → p.replyLine line = p.replyLine line') ∧
    (∀ text text' members members', Outline.ofText? text = some (.object members) →
      Outline.ofText? text' = some (.object members') →
      Request.SameUnderstood members members' → ∀ r, Request.ofText text = .ok r →
        (∃ r', Request.ofText text' = .ok r') ∧
          p.replyLine (Utf8.encode text') = p.replyLine (Utf8.encode text)) ∧
    (∀ text text' before after key o, key ∉ ["filename", "options"] →
      Outline.ofText? text = some (.object (before ++ after)) →
      Outline.ofText? text' = some (.object (before ++ (key, o) :: after)) →
      ∀ r, Request.ofText text = .ok r →
        (∃ r', Request.ofText text' = .ok r') ∧
          p.replyLine (Utf8.encode text') = p.replyLine (Utf8.encode text)) ∧
    (∀ text text' before after first last key o, key ≠ "cache" →
      Outline.ofText? text =
        some (.object (before ++ ("options", .object (first ++ last)) :: after)) →
      Outline.ofText? text' =
        some (.object (before ++ ("options", .object (first ++ (key, o) :: last)) :: after)) →
      ∀ r, Request.ofText text = .ok r →
        (∃ r', Request.ofText text' = .ok r') ∧
          p.replyLine (Utf8.encode text') = p.replyLine (Utf8.encode text)) ∧
    ∀ data data', List.Forall₂ SameQuestion (requestLines data) (requestLines data') →
      ∀ sink, (p.serve { data } sink).output = (p.serve { data := data' } sink).output ∧
        (p.serve { data } sink).ending = (p.serve { data := data' } sink).ending := by
  refine ⟨?_, ?_, ?_, ?_, fun _ _ h => p.serve_congr h⟩
  · intro line line' r r' hr hr' hleaf hcache
    exact p.replyLine_congr ⟨r, r', hr, hr', Request.question_eq_iff.2 ⟨hleaf, hcache⟩⟩
  · intro text text' members members' h h' hsame r hr
    exact p.replyLine_of_sameUnderstood h h' hsame hr
  · intro text text' before after key o hkey h h' r hr
    exact p.replyLine_of_sameUnderstood h h' (Request.sameUnderstood_insert hkey o before after) hr
  · intro text text' before after first last key o hkey h h' r hr
    exact p.replyLine_of_sameUnderstood h h'
      (Request.sameUnderstood_insert_option hkey o before after first last) hr

/-- A short request. -/
def plainRequest : Bytes :=
  Utf8.encode "\x7b\"filename\":\"src/arq.h\",\"options\":\x7b\"cache\":false\x7d\x7d"

/-- A request for the same, with more members, another order, another directory and escapes. -/
def longRequest : Bytes :=
  Utf8.encode ("\x7b \"cache\": true, \"options\": " ++
    "\x7b\"mode\": [1, null], \"c\\u0061che\": false\x7d, " ++
    "\"filename\": \"C:\\\\lib\\/\\u0061rq.h/\" \x7d")

theorem exists_plainRequest :
    ∃ r, Request.ofLine plainRequest = .ok r ∧
      (r.filename, r.options.cache) = ("src/arq.h", some false) := by
  obtain ⟨r, hr, h⟩ := Option.map_eq_some_iff.1
    (show (Request.ofLine plainRequest).toOption.map (fun r => (r.filename, r.options.cache)) =
      some ("src/arq.h", some false) by decide +kernel)
  exact ⟨r, toOption_eq_some_iff.1 hr, h⟩

theorem exists_longRequest :
    ∃ r, Request.ofLine longRequest = .ok r ∧
      (r.filename, r.options.cache) = ("C:\\lib/arq.h/", some false) := by
  obtain ⟨r, hr, h⟩ := Option.map_eq_some_iff.1
    (show (Request.ofLine longRequest).toOption.map (fun r => (r.filename, r.options.cache)) =
      some ("C:\\lib/arq.h/", some false) by decide +kernel)
  exact ⟨r, toOption_eq_some_iff.1 hr, h⟩

/-- A request with nothing but the name of a file. -/
def bareText : String := .ofList (objectOf [("filename", Text.quote "a.c")])

/-- The same with a member that is not understood. -/
def extendedText : String :=
  .ofList (objectOf [("filename", Text.quote "a.c"), ("mode", boolean true)])

theorem ofText?_bareText :
    Outline.ofText? bareText = some (.object [("filename", .scalar (.text "a.c"))]) :=
  ofText?_of_reads (reads_objectOf (.cons ⟨rfl, reads_quote 126 "a.c"⟩ .nil))

theorem ofText?_extendedText :
    Outline.ofText? extendedText =
      some (.object [("filename", .scalar (.text "a.c")), ("mode", .scalar (.boolean true))]) :=
  ofText?_of_reads (reads_objectOf (.cons ⟨rfl, reads_quote 126 "a.c"⟩
    (.cons ⟨rfl, reads_boolean 126 true⟩ .nil)))

/-- Both requests have the same reply, and a member that is not understood changes none. -/
theorem replyLine_longRequest :
    (∃ r r', Request.ofLine plainRequest = .ok r ∧ Request.ofLine longRequest = .ok r' ∧
      r.filename ≠ r'.filename ∧
      replyLine ⟨none, .builtIn⟩ plainRequest = replyLine ⟨none, .builtIn⟩ longRequest) ∧
    replyLine ⟨none, .builtIn⟩ (Utf8.encode extendedText) =
      replyLine ⟨none, .builtIn⟩ (Utf8.encode bareText) := by
  obtain ⟨hreply, -, hinsert, -⟩ := reply_depends_on_question ⟨none, .builtIn⟩
  obtain ⟨r, hr, h⟩ := exists_plainRequest
  obtain ⟨r', hr', h'⟩ := exists_longRequest
  obtain ⟨hname, hcache⟩ := Prod.mk.inj h
  obtain ⟨hname', hcache'⟩ := Prod.mk.inj h'
  have hleaf : FileName.leaf r.filename = FileName.leaf r'.filename := by
    rw [hname, hname']
    decide
  refine ⟨⟨r, r', hr, hr', ?_, ?_⟩, ?_⟩
  · rw [hname, hname']
    decide
  · exact hreply plainRequest longRequest r r' hr hr' hleaf (hcache.trans hcache'.symm)
  · obtain ⟨bare, hbare⟩ : ∃ r, Request.ofText bareText = .ok r := by
      have hread := Request.toOption_ofText ofText?_bareText
      exact ⟨_, toOption_eq_some_iff.1 hread⟩
    exact (hinsert bareText extendedText [("filename", .scalar (.text "a.c"))] [] "mode"
      (.scalar (.boolean true)) (by decide) ofText?_bareText ofText?_extendedText bare hbare).2

end Project

end CompileFlags
