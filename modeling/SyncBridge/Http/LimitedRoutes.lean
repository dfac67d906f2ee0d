import SyncBridge.Http.RateLimitWindows
import SyncBridge.Services.Routes

/-!
# Routes and their limits

The router takes a path in letters of either case and with a slash at its end;
the rules' expressions do neither, so on such a spelling the handler runs and
no limit applies.
-/

namespace SyncBridge.RateLimitMiddleware

open Router

def limitedRoutes : List (Route × RateLimitRule) :=
  [(Router.authRegister, authRegister), (Router.authLogin, authLogin),
    (Router.authRefresh, authRefresh), (receiveEvent, webhookIntake),
    (runPipeline, pipelineRuns), (previewPipeline, pipelinePreview),
    (triggerSchedule, scheduleTrigger)]

/-- Where the path is taken to a limited route, its rule is found. -/
def LimitApplies (decodes : List Char → Bool) (path : String) : Prop :=
  ∀ route rule, (route, rule) ∈ limitedRoutes →
    dispatch decodes path = some route → matchRule "POST" path = some rule

/-- No slash at the end, and the fixed words in lower case. -/
def PlainlySpelled (route : Route) (path : String) : Prop :=
  (pathname path).getLast? ≠ some '/' ∧
    ∀ pair ∈ (globalPrefix :: route).zip ((pathname path).splitOn '/').tail,
      pair.1 ≠ .param → pair.2.map Char.toLower = pair.2

/-! ## Words -/

def joined (words : List (List Char)) : List Char := words.flatMap ('/' :: ·)

section Words

variable {word : List Char} {words : List (List Char)}

theorem splitOn_append_joined (hword : '/' ∉ word)
    (hwords : ∀ other ∈ words, '/' ∉ other) :
    (word ++ joined words).splitOn '/' = word :: words := by
  induction words generalizing word with
  | nil => simp [joined, List.splitOn_eq_singleton hword]
  | cons other words ih =>
      have hrest := @ih other (hwords other List.mem_cons_self)
        fun next hnext => hwords next (List.mem_cons_of_mem _ hnext)
      have hjoined : joined (other :: words) = '/' :: (other ++ joined words) :=
        rfl
      rw [hjoined, List.splitOn_append_cons_self_of_not_mem hword, hrest]

theorem splitOn_joined (hwords : ∀ other ∈ words, '/' ∉ other) :
    (joined words).splitOn '/' = [] :: words :=
  @splitOn_append_joined [] words List.not_mem_nil hwords

theorem intercalate_eq : ['/'].intercalate (word :: words) =
    word ++ joined words := by
  induction words generalizing word with
  | nil => simp [joined]
  | cons other words ih =>
      rw [List.intercalate_cons_cons, ih]
      simp [joined]

theorem eq_joined {path : List Char} (h : path.splitOn '/' = [] :: words) :
    path = joined words := by
  have hpath : ['/'].intercalate (path.splitOn '/') = path :=
    List.intercalate_splitOn '/'
  rw [← hpath, h, intercalate_eq]
  rfl

end Words

/-! ## Expressions -/

def Exact : RouteSegment → List Char → Prop
  | .fixed word, text => text = word.toList
  | .param, text => text ≠ [] ∧ '/' ∉ text

def expression : Route → List PathPiece
  | [] => []
  | .fixed word :: route => .text "/" :: .text word :: expression route
  | .param :: route => .text "/" :: .segment :: expression route

section Expressions

variable {chars : List Char} {pieces : List PathPiece} {value : String}

theorem testPath_text : testPath (.text value :: pieces) chars = true ↔
    ∃ rest, chars = value.toList ++ rest ∧ testPath pieces rest = true := by
  rw [testPath, Bool.and_eq_true, List.isPrefixOf_iff_prefix]
  constructor
  · rintro ⟨⟨rest, rfl⟩, htest⟩
    exact ⟨rest, rfl, by simpa using htest⟩
  · rintro ⟨rest, rfl, htest⟩
    exact ⟨⟨rest, rfl⟩, by simpa using htest⟩

theorem testSegment_iff {rest : List Char → Bool} :
    testSegment rest chars = true ↔ ∃ text tail, text ≠ [] ∧ '/' ∉ text ∧
      chars = text ++ tail ∧ rest tail = true := by
  induction chars with
  | nil => simp [testSegment]
  | cons char chars ih =>
      simp only [testSegment, Bool.and_eq_true, bne_iff_ne, Bool.or_eq_true, ih]
      constructor
      · rintro ⟨hchar, hrest | ⟨text, tail, -, htext, rfl, htail⟩⟩
        · exact ⟨[char], chars, by simp, by simpa using Ne.symm hchar, rfl,
            hrest⟩
        · refine ⟨char :: text, tail, by simp, ?_, rfl, htail⟩
          simpa [Ne.symm hchar] using htext
      · rintro ⟨text, tail, hne, htext, heq, htail⟩
        cases text with
        | nil => exact absurd rfl hne
        | cons first text =>
            obtain ⟨rfl, rfl⟩ := List.cons.inj heq
            simp only [List.mem_cons, not_or] at htext
            refine ⟨Ne.symm htext.1, ?_⟩
            cases text with
            | nil => exact .inl htail
            | cons second text =>
                exact .inr ⟨_, tail, by simp, htext.2, rfl, htail⟩

theorem testPath_segment : testPath (.segment :: pieces) chars = true ↔
    ∃ text tail, text ≠ [] ∧ '/' ∉ text ∧ chars = text ++ tail ∧
      testPath pieces tail = true := testSegment_iff

theorem testPath_expression {route : Route} :
    testPath (expression route) chars = true ↔
      ∃ words, List.Forall₂ Exact route words ∧ chars = joined words := by
  induction route generalizing chars with
  | nil => simp [expression, testPath, joined]
  | cons segment route ih =>
      simp only [List.forall₂_cons_left_iff]
      constructor
      · intro htest
        cases segment with
        | fixed word =>
            rw [expression, testPath_text] at htest
            obtain ⟨rest, rfl, htest⟩ := htest
            rw [testPath_text] at htest
            obtain ⟨rest, rfl, htest⟩ := htest
            obtain ⟨words, hwords, rfl⟩ := ih.mp htest
            exact ⟨_, ⟨word.toList, words, rfl, hwords, rfl⟩, rfl⟩
        | param =>
            rw [expression, testPath_text] at htest
            obtain ⟨rest, rfl, htest⟩ := htest
            rw [testPath_segment] at htest
            obtain ⟨text, tail, hne, hslash, rfl, htest⟩ := htest
            obtain ⟨words, hwords, rfl⟩ := ih.mp htest
            exact ⟨_, ⟨text, words, ⟨hne, hslash⟩, hwords, rfl⟩, rfl⟩
      · rintro ⟨_, ⟨text, words, hexact, hwords, rfl⟩, rfl⟩
        have hrest := ih.mpr ⟨words, hwords, rfl⟩
        cases segment with
        | fixed word =>
            obtain rfl := hexact
            rw [expression, testPath_text]
            refine ⟨word.toList ++ joined words, rfl, ?_⟩
            rw [testPath_text]
            exact ⟨joined words, rfl, hrest⟩
        | param =>
            rw [expression, testPath_text]
            refine ⟨text ++ joined words, rfl, ?_⟩
            rw [testPath_segment]
            exact ⟨text, joined words, hexact.1, hexact.2, rfl, hrest⟩

theorem testPath_append {others : List PathPiece} (front : List PathPiece)
    (h : testPath pieces = testPath others) :
    testPath (front ++ pieces) = testPath (front ++ others) := by
  induction front with
  | nil => exact h
  | cons piece front ih =>
      funext chars
      cases piece <;> simp only [List.cons_append, testPath, ih]

theorem testPath_texts (texts : List String) (pieces : List PathPiece) :
    testPath (.text (texts.foldr (· ++ ·) "") :: pieces) =
      testPath (texts.map PathPiece.text ++ pieces) := by
  induction texts with
  | nil =>
      funext chars
      simp [testPath]
  | cons first texts ih =>
      refine Eq.trans ?_ (testPath_append [.text first] ih)
      funext chars
      rw [Bool.eq_iff_iff, List.singleton_append, testPath_text, testPath_text]
      simp only [testPath_text, List.foldr_cons, String.toList_append]
      constructor
      · rintro ⟨rest, rfl, htest⟩
        exact ⟨_, List.append_assoc _ _ _, _, rfl, htest⟩
      · rintro ⟨_, rfl, rest, rfl, htest⟩
        exact ⟨rest, (List.append_assoc _ _ _).symm, htest⟩

theorem testPath_around (first second : List String) :
    testPath [.text (first.foldr (· ++ ·) ""), .segment,
        .text (second.foldr (· ++ ·) "")] =
      testPath (first.map PathPiece.text ++
        (.segment :: (second.map PathPiece.text ++ []))) :=
  (testPath_texts first _).trans (testPath_append _
    (testPath_append [.segment] (testPath_texts second [])))

/-- The rules' expressions take the limited routes as they are spelled. -/
theorem testPath_rule {route : Route} {rule : RateLimitRule}
    (h : (route, rule) ∈ limitedRoutes) :
    testPath rule.path = testPath (expression route) := by
  simp only [limitedRoutes, List.mem_cons, Prod.mk.injEq, List.not_mem_nil,
    or_false] at h
  rcases h with ⟨rfl, rfl⟩ | ⟨rfl, rfl⟩ | ⟨rfl, rfl⟩ | ⟨rfl, rfl⟩ | ⟨rfl, rfl⟩ |
    ⟨rfl, rfl⟩ | ⟨rfl, rfl⟩
  · exact testPath_texts ["/", "auth", "/", "register"] []
  · exact testPath_texts ["/", "auth", "/", "login"] []
  · exact testPath_texts ["/", "auth", "/", "refresh"] []
  · exact testPath_around ["/", "webhooks", "/"] ["/", "events"]
  · exact testPath_around ["/", "pipelines", "/"] ["/", "runs"]
  · exact testPath_around ["/", "pipelines", "/"] ["/", "preview"]
  · exact testPath_around ["/", "pipelines", "/"]
      ["/", "schedule", "/", "trigger"]

end Expressions

/-! ## The rule of a path -/

def compatible : Route → Route → Bool
  | [], [] => true
  | .fixed word :: route, .fixed other :: route' =>
      word == other && compatible route route'
  | _ :: route, _ :: route' => compatible route route'
  | _, _ => false

def lowerWord : RouteSegment → Bool
  | .fixed word =>
      !word.toList.isEmpty && !word.toList.contains '/' &&
        word.toList.map Char.toLower == word.toList
  | .param => true

section Rules

variable {route route' : Route} {rule : RateLimitRule}
  {words : List (List Char)} {path : String}

theorem lowerWord_fixed {word : String} (h : lowerWord (.fixed word) = true) :
    word.toList ≠ [] ∧ '/' ∉ word.toList ∧
      word.toList.map Char.toLower = word.toList := by
  simp only [lowerWord, Bool.and_eq_true, Bool.not_eq_true', beq_iff_eq,
    List.contains_eq_mem, decide_eq_false_iff_not,
    List.isEmpty_eq_false_iff] at h
  exact ⟨h.1.1, h.1.2, h.2⟩

theorem not_mem_of_exact (hroute : ∀ segment ∈ route,
      lowerWord segment = true) (h : List.Forall₂ Exact route words) :
    ∀ word ∈ words, '/' ∉ word := by
  induction h with
  | nil => simp
  | @cons segment word route words hword _ ih =>
      intro text htext
      rcases List.mem_cons.mp htext with rfl | htext
      · cases segment with
        | fixed word =>
            obtain rfl := hword
            exact (lowerWord_fixed (hroute _ List.mem_cons_self)).2.1
        | param => exact hword.2
      · exact ih (fun other hother => hroute other
          (List.mem_cons_of_mem _ hother)) text htext

theorem compatible_of_exact (h : List.Forall₂ Exact route words)
    (h' : List.Forall₂ Exact route' words) : compatible route route' = true := by
  induction h generalizing route' with
  | nil => cases h'; rfl
  | @cons segment word route words hword _ ih =>
      cases h' with
      | @cons segment' _ route' _ hword' hrest' =>
          have hrest := ih hrest'
          cases segment with
          | param => simpa [compatible] using hrest
          | fixed word =>
              cases segment' with
              | param => simpa [compatible] using hrest
              | fixed other =>
                  have hsame : word = other :=
                    String.toList_inj.mp (hword.symm.trans hword')
                  simpa [compatible, hsame] using hrest

theorem limited_words : ∀ pair ∈ limitedRoutes, ∀ segment ∈ pair.1,
    lowerWord segment = true := by
  decide

theorem limited_apart : ∀ pair ∈ limitedRoutes, ∀ other ∈ limitedRoutes,
    compatible pair.1 other.1 = true → pair.2 = other.2 := by
  decide

theorem limited_of_rule : ∀ rule ∈ rateLimitRules,
    ∃ pair ∈ limitedRoutes, pair.2 = rule := by
  decide

theorem exact_of_testPath (h : (route, rule) ∈ limitedRoutes)
    {chars : List Char} :
    testPath rule.path chars = true ↔
      ∃ words, List.Forall₂ Exact route words ∧ chars = joined words := by
  rw [testPath_rule h, testPath_expression]

theorem matchRule_iff (h : (route, rule) ∈ limitedRoutes) :
    matchRule "POST" path = some rule ↔
      testPath rule.path (normalizePath path.toList) = true := by
  have hpost : ∀ rule ∈ rateLimitRules, (rule.method.text == "POST") = true := by
    decide
  have hrules : ∀ pair ∈ limitedRoutes, pair.2 ∈ rateLimitRules := by decide
  constructor
  · intro hfound
    have htest := List.find?_some hfound
    rw [Bool.and_eq_true] at htest
    exact htest.2
  · intro htest
    have hsome : (matchRule "POST" path).isSome = true := by
      rw [matchRule, List.find?_isSome]
      exact ⟨rule, hrules _ h, by
        rw [hpost rule (hrules _ h), htest]
        rfl⟩
    obtain ⟨found, hfound⟩ := Option.isSome_iff_exists.mp hsome
    rw [hfound]
    have hmem := List.mem_of_find?_eq_some hfound
    obtain ⟨pair, hpair, hpairRule⟩ := limited_of_rule found hmem
    have hother := List.find?_some hfound
    rw [Bool.and_eq_true] at hother
    -- both take the one list of words that the path is made of
    obtain ⟨words, hwords, hchars⟩ := (exact_of_testPath h).mp htest
    obtain ⟨others, hothers, hchars'⟩ :=
      (@exact_of_testPath pair.1 found (hpairRule ▸ hpair) _).mp hother.2
    have hsplit := splitOn_joined (not_mem_of_exact (limited_words _ h) hwords)
    rw [← hchars, hchars', splitOn_joined
      (not_mem_of_exact (limited_words _ hpair) hothers)] at hsplit
    obtain rfl : others = words := (List.cons.inj hsplit).2
    rw [← hpairRule]
    exact congrArg some (limited_apart pair hpair _ h
      (compatible_of_exact hothers hwords))

end Rules

/-! ## The router's spellings -/

section Spellings

variable {decodes : List Char → Bool} {segment : RouteSegment} {route : Route}
  {rule : RateLimitRule} {first word : List Char} {words : List (List Char)}
  {path : String}

theorem fits_iff : fits decodes route words = true ↔
    List.Forall₂ (fun segment word => segment.fits decodes word = true)
      route words := by
  induction route generalizing words with
  | nil => cases words <;> simp [fits]
  | cons segment route ih => cases words <;> simp [fits, ih]

theorem slash_of_toLower (h : '/' ∈ word) : '/' ∈ word.map Char.toLower :=
  List.mem_map.mpr ⟨'/', h, by decide⟩

theorem proper_of_fits (hsegment : lowerWord segment = true)
    (h : segment.fits decodes word = true) : word ≠ [] ∧ '/' ∉ word := by
  cases segment with
  | fixed fixedWord =>
      obtain ⟨hne, hslash, hlower⟩ := lowerWord_fixed hsegment
      simp only [RouteSegment.fits, beq_iff_eq, hlower] at h
      constructor
      · rintro rfl
        exact hne h.symm
      · intro hmem
        exact hslash (h ▸ slash_of_toLower hmem)
  | param =>
      simp only [RouteSegment.fits, Bool.and_eq_true, Bool.not_eq_true',
        List.isEmpty_eq_false_iff, List.contains_eq_mem,
        decide_eq_false_iff_not] at h
      exact ⟨h.1.1, h.1.2⟩

/-- What the router takes for a segment is as it is in the route exactly if a
fixed word is in lower case. -/
theorem exact_iff_lower (hsegment : lowerWord segment = true)
    (h : segment.fits decodes word = true) :
    Exact segment word ↔
      (segment ≠ .param → word.map Char.toLower = word) := by
  cases segment with
  | fixed fixedWord =>
      obtain ⟨-, -, hlower⟩ := lowerWord_fixed hsegment
      simp only [RouteSegment.fits, beq_iff_eq, hlower] at h
      rw [h]
      simpa [Exact] using eq_comm
  | param => simpa [Exact] using proper_of_fits hsegment h

theorem exact_iff_plain (hroute : ∀ segment ∈ route, lowerWord segment = true)
    (h : List.Forall₂ (fun segment word => segment.fits decodes word = true)
      route words) :
    List.Forall₂ Exact route words ↔
      ∀ pair ∈ route.zip words,
        pair.1 ≠ .param → pair.2.map Char.toLower = pair.2 := by
  induction h with
  | nil => simp
  | @cons segment word route words hword _ ih =>
      have hrest := ih fun other hother =>
        hroute other (List.mem_cons_of_mem _ hother)
      rw [List.forall₂_cons, hrest,
        exact_iff_lower (hroute segment List.mem_cons_self) hword,
        List.zip_cons_cons, List.forall_mem_cons]

/-! ## Normalized paths -/

theorem normalizePath_api
    (h : pathname path = joined ("api".toList :: word :: words)) :
    normalizePath path.toList = joined (word :: words) := by
  have hclean : cleanedPath path.toList =
      joined ("api".toList :: word :: words) := h
  simp [normalizePath, hclean, joined]

theorem normalizePath_other (h : pathname path = joined (first :: words))
    (hfirst : '/' ∉ first) (hapi : first ≠ "api".toList) :
    normalizePath path.toList = joined (first :: words) := by
  have hclean : cleanedPath path.toList = joined (first :: words) := h
  have hprefix : ¬ "/api/".toList <+: joined (first :: words) := by
    rintro ⟨rest, hrest⟩
    cases words with
    | nil =>
        have heq : "api".toList ++ '/' :: rest = first := by
          simpa [joined] using hrest
        exact hfirst (heq ▸ by simp)
    | cons word words =>
        have heq : "api".toList ++ '/' :: rest =
            first ++ '/' :: (word ++ joined words) := by
          simpa [joined] using hrest
        exact hapi (eq_of_split (by decide) hfirst heq).1.symm
  rw [normalizePath, hclean, if_neg (by rwa [List.isPrefixOf_iff_prefix])]

theorem matchRule_words (h : (route, rule) ∈ limitedRoutes)
    (hpath : pathname path = joined (first :: words)) (hfirst : '/' ∉ first)
    (hwords : ∀ word ∈ words, '/' ∉ word)
    (hlength : route.length ≤ words.length) (hne : words ≠ []) :
    matchRule "POST" path = some rule ↔
      first = "api".toList ∧ List.Forall₂ Exact route words := by
  have hall : ∀ word ∈ first :: words, '/' ∉ word := by
    simpa using ⟨hfirst, hwords⟩
  have hsame : ∀ {others others' : List (List Char)},
      (∀ word ∈ others, '/' ∉ word) → List.Forall₂ Exact route others' →
      joined others = joined others' → others' = others := by
    intro others others' hothers hexact heq
    have hsplit := splitOn_joined
      (not_mem_of_exact (limited_words _ h) hexact)
    rw [← heq, splitOn_joined hothers] at hsplit
    exact (List.cons.inj hsplit).2.symm
  rw [matchRule_iff h, exact_of_testPath h]
  by_cases hapi : first = "api".toList
  · obtain ⟨next, rest, rfl⟩ := List.exists_cons_of_ne_nil hne
    rw [normalizePath_api (hapi ▸ hpath)]
    constructor
    · rintro ⟨others, hexact, heq⟩
      exact ⟨hapi, hsame hwords hexact heq ▸ hexact⟩
    · rintro ⟨-, hexact⟩
      exact ⟨_, hexact, rfl⟩
  · rw [normalizePath_other hpath hfirst hapi]
    refine iff_of_false ?_ fun hboth => hapi hboth.1
    rintro ⟨others, hexact, heq⟩
    have hlong := (hsame hall hexact heq ▸ hexact).length_eq
    simp at hlong
    omega

theorem exists_of_forall₂_concat {α β : Type} {R : α → β → Prop}
    {items : List α} {item : α} {others : List β}
    (h : List.Forall₂ R (items ++ [item]) others) :
    ∃ before last, others = before ++ [last] ∧ List.Forall₂ R items before ∧
      R item last := by
  induction items generalizing others with
  | nil =>
      obtain ⟨last, _, hlast, hnil, rfl⟩ := List.forall₂_cons_left_iff.mp h
      cases hnil
      exact ⟨[], last, rfl, .nil, hlast⟩
  | cons first items ih =>
      obtain ⟨other, _, hfirst, hrest, rfl⟩ := List.forall₂_cons_left_iff.mp h
      obtain ⟨before, last, rfl, hbefore, hlast⟩ := ih hrest
      exact ⟨other :: before, last, rfl, .cons hfirst hbefore, hlast⟩

theorem words_of_matchesRoute (h : matchesRoute decodes path route = true) :
    ∃ first words, (pathname path).splitOn '/' = [] :: first :: words ∧
      first.map Char.toLower = "api".toList ∧
      (List.Forall₂ (fun segment word => segment.fits decodes word = true)
          route words ∨
        ∃ before, words = before ++ [[]] ∧
          List.Forall₂ (fun segment word => segment.fits decodes word = true)
            route before) := by
  rw [matchesRoute] at h
  split at h
  · rename_i words hsplit
    rw [Bool.or_eq_true, fits_iff, fits_iff, List.cons_append,
      List.forall₂_cons_left_iff, List.forall₂_cons_left_iff] at h
    rcases h with ⟨first, words, hfirst, hwords, rfl⟩ |
      ⟨first, words, hfirst, hwords, rfl⟩
    · exact ⟨first, words, hsplit, by simpa [globalPrefix, RouteSegment.fits]
        using hfirst, .inl hwords⟩
    · obtain ⟨before, last, rfl, hbefore, hlast⟩ :=
        exists_of_forall₂_concat hwords
      obtain rfl : last = [] := by simpa [RouteSegment.fits] using hlast
      exact ⟨first, _, hsplit, by simpa [globalPrefix, RouteSegment.fits]
        using hfirst, .inr ⟨before, rfl, hbefore⟩⟩
  · cases h

theorem proper_of_forall₂ (hroute : ∀ segment ∈ route,
      lowerWord segment = true)
    (h : List.Forall₂ (fun segment word => segment.fits decodes word = true)
      route words) : ∀ word ∈ words, word ≠ [] ∧ '/' ∉ word := by
  induction h with
  | nil => simp
  | @cons segment word route words hword _ ih =>
      rw [List.forall_mem_cons]
      exact ⟨proper_of_fits (hroute segment List.mem_cons_self) hword,
        ih fun other hother => hroute other (List.mem_cons_of_mem _ hother)⟩

theorem getLast?_joined_concat :
    (joined (words ++ [word])).getLast? = some (word.getLast?.getD '/') := by
  have hjoined : joined (words ++ [word]) = joined words ++ '/' :: word := by
    simp [joined]
  rw [hjoined, List.getLast?_append]
  cases word <;> simp [List.getLast?_cons]

theorem getLast?_joined_ne (hwords : ∀ word ∈ words, word ≠ [] ∧ '/' ∉ word)
    (hne : words ≠ []) : (joined (first :: words)).getLast? ≠ some '/' := by
  obtain ⟨front, last, rfl⟩ := (List.eq_nil_or_concat' words).resolve_left hne
  obtain ⟨hlast, hslash⟩ := hwords last (by simp)
  rw [← List.cons_append, getLast?_joined_concat,
    List.getLast?_eq_some_getLast hlast]
  intro heq
  exact hslash (Option.some.inj heq ▸ List.getLast_mem hlast)

theorem slash_not_mem_of_api (h : first.map Char.toLower = "api".toList) :
    '/' ∉ first := by
  intro hmem
  have hslash := slash_of_toLower hmem
  rw [h] at hslash
  revert hslash
  decide

/-- No rule is found for a path with a slash at its end. -/
theorem matchRule_of_slash (h : (route, rule) ∈ limitedRoutes)
    (hpath : pathname path = joined (first :: (words ++ [[]])))
    (hfirst : '/' ∉ first) (hwords : ∀ word ∈ words, '/' ∉ word)
    (hlength : route.length = words.length) :
    matchRule "POST" path ≠ some rule := by
  have hslashes : ∀ word ∈ words ++ [[]], '/' ∉ word := by
    intro word hword
    rcases List.mem_append.mp hword with hbefore | hlast
    · exact hwords word hbefore
    · simp [List.mem_singleton.mp hlast]
  rw [ne_eq, matchRule_words h hpath hfirst hslashes (by simp; omega) (by simp)]
  intro hboth
  have hlong := hboth.2.length_eq
  simp at hlong
  omega

/-- For a path taken to a limited route the rule is found exactly if the path
is plainly spelled. -/
theorem matchRule_iff_plain (h : (route, rule) ∈ limitedRoutes)
    (hroute : matchesRoute decodes path route = true) :
    matchRule "POST" path = some rule ↔ PlainlySpelled route path := by
  obtain ⟨first, words, hsplit, hapi, hfits⟩ := words_of_matchesRoute hroute
  have hpath := eq_joined hsplit
  have hlower := limited_words _ h
  have hfirst := slash_not_mem_of_api hapi
  have hnonempty : ∀ pair ∈ limitedRoutes, 0 < pair.1.length := by decide
  have hlength : 0 < route.length := hnonempty _ h
  rcases hfits with hfits | ⟨before, rfl, hfits⟩
  · have hproper := proper_of_forall₂ hlower hfits
    have hsame : route.length = words.length := hfits.length_eq
    have hne : words ≠ [] := List.ne_nil_of_length_pos (by omega)
    have hend := @getLast?_joined_ne first words hproper hne
    have hprefix : RouteSegment.fixed "api" ≠ .param := by simp
    rw [matchRule_words h hpath hfirst (fun word hword => (hproper word hword).2)
      (by omega) hne, exact_iff_plain hlower hfits, PlainlySpelled, hsplit,
      hpath]
    simp only [List.tail_cons, List.zip_cons_cons, List.forall_mem_cons,
      globalPrefix, hapi, hend, hprefix, ne_eq, not_false_eq_true, true_imp_iff,
      true_and]
    exact and_congr_left' eq_comm
  · have hproper := proper_of_forall₂ hlower hfits
    refine iff_of_false ?_ fun hplain => hplain.1 ?_
    · exact matchRule_of_slash h hpath hfirst
        (fun word hword => (hproper word hword).2) hfits.length_eq
    · rw [hpath]
      exact @getLast?_joined_concat [] (first :: before)

end Spellings

/-- The limits apply exactly where no path taken to a limited route has a slash
at its end, or a fixed word that is not in lower case. -/
theorem limit_applies_iff (decodes : List Char → Bool) (path : String) :
    LimitApplies decodes path ↔
      ∀ route rule, (route, rule) ∈ limitedRoutes →
        dispatch decodes path = some route → PlainlySpelled route path := by
  refine forall_congr' fun route => forall_congr' fun rule =>
    forall_congr' fun hmem => forall_congr' fun hdispatch => ?_
  exact matchRule_iff_plain hmem (List.find?_some hdispatch)

/-- A login with a slash at the end of the path. -/
theorem limit_applies_fails :
    dispatch (fun _ => true) "/api/auth/login/" = some Router.authLogin ∧
      ¬ LimitApplies (fun _ => true) "/api/auth/login/" := by
  have hdispatch : dispatch (fun _ => true) "/api/auth/login/" =
      some Router.authLogin := by decide +kernel
  refine ⟨hdispatch, fun h => ?_⟩
  have hrule := h Router.authLogin authLogin (by decide) hdispatch
  exact absurd hrule (by decide +kernel)

end SyncBridge.RateLimitMiddleware
