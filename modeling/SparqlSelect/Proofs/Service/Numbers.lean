import SparqlSelect.Proofs.Compile.Amounts
import SparqlSelect.Service

/-!
# Numbers that come back as errors

What is wrong with a number in a request should be told to whoever made the request, as JSON. The
readers see to it for a value of the wrong type, a text that is no number and a limit below zero.
They do not foresee a number without an amount, an infinite limit or an integer radius beyond the
largest double; and an integer with too many digits already stops the reading of the body. In these
cases, and for no other value of such a place, the service fails.

* `Settings.answer` — the answer to a request for a query, by the text of its body.
* `numbers_come_back` — what comes back for each value of a place for a number.
* `infinite_limit_fails` — a limit for which the service fails.
-/

namespace SparqlSelect

/-- What is rejected when it is read has no text. -/
theorem compile_of_read_error {s : Settings} {payload : Json} {f : Failure}
    (h : Request.read payload = .error f) : s.compile payload = .error f := by
  rw [Settings.compile, Settings.build, Traced.outcome_bind, Traced.outcome_lift, h]
  rfl

namespace Response

/-- The answer to a failure of the compiler itself. -/
def serverError : Response := ⟨500, .text "Internal Server Error"⟩

/-- An answer with a query, or with an error as JSON. -/
inductive Tells : Response → Prop
  | query (text : String) : Tells (single 200 "query" text)
  | error (message : String) : Tells (single 422 "error" message)

/-- A failure the compiler reports is answered with 422 and its message. -/
theorem ofFailure_reported {f : Failure} (h : f.IsReported) :
    ofFailure f = single 422 "error" f.message := by
  cases h <;> rfl

end Response

/-- The answer to a request for a query, by the text of its body. -/
def Settings.answer (s : Settings) (text : String) : Response :=
  s.respond "POST" "/getSparql" text.toUTF8

section

variable {s : Settings} {text : String}

theorem answer_eq (s : Settings) (text : String) :
    s.answer text = s.serve text.toUTF8 .compile := by
  have hRoute : Route.ofPath? "/getSparql".toList = some .compile := by decide
  rw [Settings.answer, Settings.respond, hRoute]
  rfl

/-- A text is the body of its own bytes. -/
theorem fromUTF8?_toUTF8 (text : String) : String.fromUTF8? text.toUTF8 = some text :=
  dif_pos text.isValidUTF8

/-- A body whose text is read as a value is decoded to that value. -/
theorem decodeBody_of_read {payload : Json} (h : Json.read text = .ok payload) :
    decodeBody text.toUTF8 = .ok payload := by
  simp only [decodeBody, fromUTF8?_toUTF8, h]

/-- A request that compiles is answered with its query. -/
theorem answer_of_compile_ok {payload : Json} {query : String}
    (hText : Json.read text = .ok payload) (h : s.compile payload = .ok query) :
    s.answer text = .single 200 "query" query := by
  simp only [answer_eq, Settings.serve, decodeBody_of_read hText, ok_bind, h]

/-- A request that fails is answered by what its failure stands for. -/
theorem answer_of_compile_error {payload : Json} {f : Failure}
    (hText : Json.read text = .ok payload) (h : s.compile payload = .error f) :
    s.answer text = .ofFailure f := by
  simp only [answer_eq, Settings.serve, decodeBody_of_read hText, ok_bind, h]

/-- An integer that is too long to be read is an error of the server, wherever it stands. -/
theorem answer_of_integerTooLong (s : Settings) (h : Json.read text = .error .integerTooLong) :
    s.answer text = .serverError := by
  have hBody : decodeBody text.toUTF8 = .error (.fault .badForm) := by
    simp only [decodeBody, fromUTF8?_toUTF8, h]
  rw [answer_eq, Settings.serve, hBody]
  rfl

/-- A request that compiles or is reported comes back as a query or as a JSON error. -/
theorem answer_tells {payload : Json} (hText : Json.read text = .ok payload)
    (h : Answers False (fun _ => True) (s.compile payload)) : (s.answer text).Tells := by
  cases hCompiled : s.compile payload with
  | ok query =>
    rw [answer_of_compile_ok hText hCompiled]
    exact .query query
  | error f =>
    rw [hCompiled] at h
    cases h with
    | error hReported =>
      rw [answer_of_compile_error hText hCompiled, Response.ofFailure_reported hReported]
      exact .error f.message
    | tooDeep hDeep => exact hDeep.elim

end

-- ---------------------------------------------------------------------------
-- Numbers
-- ---------------------------------------------------------------------------

/-- How a request with a value at a place is read and what is answered: the value counts as absent,
or it is accepted, or it has no amount that is expected and is reported with the path of the
place. -/
inductive NumberPlace.ComesBack {e : Expected} (p : NumberPlace e) (value : Json) :
    Except Failure Request → Response → Prop
  | absent {r : Request} {response : Response} : value.isMissing = true → p.amountIn r = none →
      response.Tells → ComesBack p value (.ok r) response
  | accepted {r : Request} {a : e.Amount} {response : Response} : value.isMissing = false →
      p.amountIn r = some a → e.Gives value a → response.Tells → ComesBack p value (.ok r) response
  | refused : value.isMissing = false → (∀ a, ¬ e.Gives value a) →
      ComesBack p value (.error (.invalidField p.path value e))
        (.single 422 "error" (Failure.invalidField p.path value e).message)

/-- **Numbers come back.** Take any place for a number in a request that compiles with some number
there, and any value put there instead. Unless the value is too large for the place, the request is
answered with a query or with an error as JSON: reading it treats the value as absent, accepts its
amount (a limit is not negative), or reports the value with the path of the place, because it has no
such amount. A value that is too large is an error of the server, and so is any body with an integer
that is too long to be read. -/
theorem numbers_come_back {s : Settings} {e : Expected} (p : NumberPlace e) {number : Json}
    {query : String} (hNumber : number.isNumber = true)
    (hValid : s.compile (p.requestWith number) = .ok query) :
    (∀ text value, Json.read text = .ok (p.requestWith value) →
      if e.overflows value = true then s.answer text = .serverError
      else p.ComesBack value (Request.read (p.requestWith value)) (s.answer text)) ∧
    ∀ text, Json.read text = .error .integerTooLong → s.answer text = .serverError := by
  refine ⟨fun text value hText => ?_, fun text => answer_of_integerTooLong s⟩
  obtain ⟨r, hRead⟩ : ∃ r, Request.read (p.requestWith number) = .ok r := by
    obtain ⟨q, hq, -⟩ := bind_eq_ok_iff.mp hValid
    obtain ⟨r, hRead, -⟩ := build_eq_ok_iff.mp hq
    exact ⟨r, hRead⟩
  obtain ⟨put, hPut, hAdjusted, hReads⟩ := p.readRequest_into number r hRead
  obtain ⟨a, rfl⟩ : ∃ a, r = put (some a) := by
    obtain ⟨found, hFound, rfl⟩ := map_eq_ok_iff.mp ((hReads number).symm.trans hRead)
    obtain ⟨a, rfl⟩ := Expected.read_number hNumber hFound
    exact ⟨a, rfl⟩
  -- whatever the amount is, the request with it compiles or is reported
  have hTells (u : Option e.Amount) (h : Request.read (p.requestWith value) = .ok (put u)) :
      (s.answer text).Tells :=
    answer_tells hText (compile_follows hRead h (hAdjusted a u) query hValid)
  have hValue := hReads value
  dsimp only at hValue
  have hOutcome := e.read_outcome value p.path
  generalize e.read value p.path = outcome at hValue hOutcome
  cases hOutcome with
  | overflow hLarge =>
    rw [if_pos hLarge, answer_of_compile_error hText (compile_of_read_error hValue)]
    rfl
  | absent hFits hMissing =>
    rw [if_neg (by simp [hFits]), hValue]
    exact .absent hMissing (hPut none) (hTells none hValue)
  | @accepted a' hFits hThere hGives =>
    rw [if_neg (by simp [hFits]), hValue]
    exact .accepted hThere (hPut (some a')) hGives (hTells (some a') hValue)
  | refused hFits hThere hNone =>
    rw [if_neg (by simp [hFits]), hValue,
      answer_of_compile_error hText (compile_of_read_error hValue)]
    exact .refused hThere hNone

/-- A body is read as a value that it is compared with by evaluation. -/
theorem read_eq_of_same {text : String} {value : Json}
    (h : (Json.read text).toOption.map (Json.same value) = some true) :
    Json.read text = .ok value := by
  obtain ⟨found, hFound, hSame⟩ := Option.map_eq_some_iff.mp h
  rw [toOption_eq_some_iff.mp hFound, Json.eq_of_same hSame]

/-- A request for gauges, without the limit that is enabled for them. -/
def gaugeLimit : LimitPlace where
  request := ⟨[], [], by simp⟩
  before := []
  after := []
  observable := ⟨[("subject", .str "?g"), ("predicate", .str "?p"), ("object", .str "?o")], [],
    by simp⟩
  modifiers := ⟨[], [], by simp⟩
  limit := ⟨[("enabled", .bool true)], [], by simp⟩
  enabled := rfl

/-- The body of that request with a word for the limit. -/
def gaugeText : String :=
  "\x7b\"observables\":[\x7b\"subject\":\"?g\",\"predicate\":\"?p\",\"object\":\"?o\"," ++
  "\"modifiers\":\x7b\"limit\":\x7b\"enabled\":true,\"value\":\"lots\"\x7d\x7d\x7d]\x7d"

/-- The limit is reported with its path. -/
theorem numbers_come_back_limit :
    (∃ query, Settings.standard.compile ((NumberPlace.ownLimit gaugeLimit).requestWith (.int 5)) =
        .ok query) ∧
      Json.read gaugeText = .ok ((NumberPlace.ownLimit gaugeLimit).requestWith (.str "lots")) ∧
      Settings.standard.answer gaugeText = .single 422 "error" ("Invalid value for " ++
        "observables[0].modifiers.limit.value: expected a non-negative integer, got 'lots'") := by
  obtain ⟨query, hValid⟩ := exists_of_isOk (show (Settings.standard.compile
    ((NumberPlace.ownLimit gaugeLimit).requestWith (.int 5))).isOk = true by decide +kernel)
  have hText : Json.read gaugeText =
      .ok ((NumberPlace.ownLimit gaugeLimit).requestWith (.str "lots")) :=
    read_eq_of_same (by decide +kernel)
  refine ⟨⟨query, hValid⟩, hText, ?_⟩
  have hBack := (numbers_come_back (.ownLimit gaugeLimit) rfl hValid).1 gaugeText _ hText
  rw [if_neg (by decide)] at hBack
  generalize Request.read _ = outcome at hBack
  generalize Settings.standard.answer gaugeText = response at hBack
  -- the value is neither missing nor a number, so it is refused
  cases hBack with
  | absent hMissing => cases hMissing
  | accepted _ _ hGives =>
    have hNone : (Json.str "lots").toInteger.toOption = none := by decide +kernel
    rw [show (Json.str "lots").toInteger = _ from hGives.1] at hNone
    cases hNone
  | refused =>
    have hMessage : (Failure.invalidField (NumberPlace.ownLimit gaugeLimit).path (.str "lots")
        .count).message = "Invalid value for " ++
        "observables[0].modifiers.limit.value: expected a non-negative integer, got 'lots'" := by
      decide +kernel
    rw [hMessage]

/-- A request without its limit. -/
def everyLimit : NumberPlace .count :=
  .limit ⟨[("observables", .arr [.obj [("subject", .str "?s"), ("predicate", .str "?p"),
    ("object", .str "?o")]])], [], by simp⟩

/-- The body of that request with a limit beyond all doubles. -/
def infiniteLimitText : String :=
  "\x7b\"observables\":[\x7b\"subject\":\"?s\",\"predicate\":\"?p\",\"object\":\"?o\"\x7d]," ++
  "\"limit\":1e999\x7d"

/-- An infinite limit is no integer, but it is not reported: the service fails, although the request
is answered with a limit of five. -/
theorem infinite_limit_fails :
    (Settings.standard.compile (everyLimit.requestWith (.int 5))).isOk = true ∧
      Json.read infiniteLimitText = .ok (everyLimit.requestWith (.float (.infinite false))) ∧
      Settings.standard.answer infiniteLimitText = .serverError ∧
      ¬ (Settings.standard.answer infiniteLimitText).Tells := by
  have hText : Json.read infiniteLimitText =
      .ok (everyLimit.requestWith (.float (.infinite false))) :=
    read_eq_of_same (by decide +kernel)
  have hRead : Request.read (everyLimit.requestWith (.float (.infinite false))) =
      .error (.fault .tooLarge) := by rfl
  have hFails : Settings.standard.answer infiniteLimitText = .serverError :=
    answer_of_compile_error hText (compile_of_read_error hRead)
  refine ⟨by decide +kernel, hText, hFails, ?_⟩
  rw [hFails]
  rintro ⟨⟩

end SparqlSelect
