import SyncBridge.Store

/-!
# Cron expressions

`cron-utils.ts`: the five fields of an expression, and the search for the next
minute that matches all of them in a timezone.  The calendar of the runtime is
used through the functions of `Calendar` only.
-/

namespace SyncBridge.Cron

/-! ## Text -/

/-- `text.replace(/\s+/g, ' ')`. -/
def collapseWhiteSpace : List Char → List Char
  | [] => []
  | char :: chars =>
      if !isWhiteSpace char then char :: collapseWhiteSpace chars
      else match chars with
      | next :: _ =>
          if isWhiteSpace next then collapseWhiteSpace chars
          else ' ' :: collapseWhiteSpace chars
      | [] => [' ']

/-- `text.split(separator)` for a separator of one character. -/
def split (separator : Char) : List Char → List (List Char)
  | [] => [[]]
  | char :: chars =>
      match split separator chars with
      | [] => [[char]]
      | first :: rest =>
          if char = separator then [] :: first :: rest
          else (char :: first) :: rest

/-- `text.match(/^(.+)\/(\d+)$/)`: what is before and after the last slash, if
that is followed by nothing but digits.  A field has no line breaks. -/
def stepMatch (chars : List Char) : Option (List Char × List Char) :=
  let step := (chars.reverse.takeWhile isDecimalDigit).reverse
  match chars.reverse.dropWhile isDecimalDigit with
  | '/' :: base =>
      if step.isEmpty || base.isEmpty then none
      else some (base.reverse, step)
  | _ => none

/-- `Number(text)` where `Number.isInteger` holds of it. -/
def integer (chars : List Char) : Option ℤ :=
  match number (String.ofList chars) with
  | some value => if value.den = 1 then some value.num else none
  | none => none

/-- The shortest decimal digits that are read back as the number, and the power
of ten they are multiplied with. -/
def shortestDigits (value : Nat) : Nat × Nat :=
  let width := (Nat.toDigits 10 value).length
  let candidates := (List.range width).reverse.flatMap fun dropped =>
    let digits := value / 10 ^ dropped
    let nearest :=
      if 10 ^ dropped ≤ 2 * (value % 10 ^ dropped) then
        [digits + 1, digits] else [digits, digits + 1]
    nearest.map fun digits => (digits, dropped)
  (candidates.find? fun (digits, dropped) =>
    toDouble ((digits * 10 ^ dropped : Nat) : ℚ) = some (value : ℚ)).getD
      (value, 0)

/-- `String(value)` of an integer. -/
def integerText (value : ℤ) : String :=
  let (digits, dropped) := shortestDigits value.natAbs
  let sign := if value < 0 then "-" else ""
  let text := Nat.toDigits 10 digits
  let exponent := text.length + dropped - 1
  if exponent < 21 then sign ++ toString (digits * 10 ^ dropped)
  else
    let significant := (text.reverse.dropWhile (· = '0')).reverse
    sign ++ String.ofList (match significant with
      | first :: rest@(_ :: _) => first :: '.' :: rest
      | digits => digits) ++ "e+" ++ toString exponent

/-! ## Expressions -/

structure CronFieldSpec where
  name : String
  min : ℤ
  max : ℤ
  allowSevenAsSunday : Bool := false

def minuteSpec : CronFieldSpec := ⟨"minute", 0, 59, false⟩
def hourSpec : CronFieldSpec := ⟨"hour", 0, 23, false⟩
def dayOfMonthSpec : CronFieldSpec := ⟨"dayOfMonth", 1, 31, false⟩
def monthSpec : CronFieldSpec := ⟨"month", 1, 12, false⟩
def dayOfWeekSpec : CronFieldSpec := ⟨"dayOfWeek", 0, 6, true⟩

structure ParsedCron where
  expression : String
  minute : List ℤ
  hour : List ℤ
  dayOfMonth : List ℤ
  month : List ℤ
  dayOfWeek : List ℤ

section Fields

variable (spec : CronFieldSpec)

def fieldError (text : String) : Failure :=
  .error ("Cron " ++ spec.name ++ text)

def parseFieldValue (raw : List Char) : Except Failure ℤ :=
  match integer raw with
  | none => .error (fieldError spec " field must contain integers")
  | some value =>
      if spec.allowSevenAsSunday && value = 7 then .ok 0
      else if value < spec.min ∨ spec.max < value then
        .error (fieldError spec (" field value " ++ integerText value ++
          " is out of range (" ++ toString spec.min ++ "-" ++
          toString spec.max ++ ")"))
      else .ok value

/-- What follows a second hyphen is dropped. -/
def parseRange (value : List Char) : Except Failure (ℤ × ℤ) :=
  match split '-' value with
  | startRaw :: endRaw :: _ => do
      let start ← parseFieldValue spec startRaw
      let stop ← parseFieldValue spec endRaw
      if stop < start then
        .error (fieldError spec " range end must be >= start")
      else .ok (start, stop)
  | _ => .error (fieldError spec " field has invalid range")

/-- The loop of `addRange`: a turn for every value up to `stop`. -/
def addRange (target : List ℤ) (start stop step : ℤ) :
    Except Failure (List ℤ) :=
  if step ≤ 0 then .error (fieldError spec " field has invalid step value")
  else .ok ((List.range ((stop - start) / step + 1).toNat).foldl
    (fun target (turn : Nat) => target.insert (start + turn * step)) target)

/-- One turn of the loop over the segments. -/
def parseSegment (result : List ℤ) (segment : List Char) :
    Except Failure (List ℤ) :=
  let trimmed := trimChars segment
  if trimmed.isEmpty then
    .error (fieldError spec " field has an empty segment")
  else if trimmed = ['*'] then addRange spec result spec.min spec.max 1
  else match stepMatch trimmed with
  | some (stepBase, stepRaw) =>
      match integer stepRaw with
      | none => .error (fieldError spec " field has invalid step value")
      | some step =>
          if step ≤ 0 then
            .error (fieldError spec " field has invalid step value")
          else if stepBase = ['*'] then
            addRange spec result spec.min spec.max step
          else do
            let (start, stop) ← parseRange spec stepBase
            addRange spec result start stop step
  | none =>
      if trimmed.contains '-' then do
        let (start, stop) ← parseRange spec trimmed
        addRange spec result start stop 1
      else do
        let value ← parseFieldValue spec trimmed
        .ok (result.insert value)

def parseField (value : List Char) : Except Failure (List ℤ) := do
  let result ← (split ',' value).foldlM (parseSegment spec) []
  if result.isEmpty then
    .error (fieldError spec " field resolved to empty set")
  else .ok result

end Fields

def parseCronExpression (expression : String) : Except Failure ParsedCron :=
  let normalized := collapseWhiteSpace (trimChars expression.toList)
  if normalized.isEmpty then .error (.error "Cron expression is required")
  else match split ' ' normalized with
  | [minute, hour, dayOfMonth, month, dayOfWeek] => do
      let minute ← parseField minuteSpec minute
      let hour ← parseField hourSpec hour
      let dayOfMonth ← parseField dayOfMonthSpec dayOfMonth
      let month ← parseField monthSpec month
      let dayOfWeek ← parseField dayOfWeekSpec dayOfWeek
      .ok {
        expression := String.ofList normalized
        minute := minute
        hour := hour
        dayOfMonth := dayOfMonth
        month := month
        dayOfWeek := dayOfWeek }
  | _ => .error (.error ("Cron expression must use 5 fields " ++
      "(minute hour day-of-month month day-of-week)"))

def validateCronExpression (expression : String) : List String :=
  match parseCronExpression expression with
  | .ok _ => []
  | .error failure => [failure.message]

/-! ## Dates -/

structure ZonedDateParts where
  minute : ℤ
  hour : ℤ
  dayOfMonth : ℤ
  month : ℤ
  dayOfWeek : ℤ

/-- The calendar of the runtime: the timezones `Intl.DateTimeFormat` accepts,
the parts of a date in a timezone, and the host's own local time. -/
structure Calendar where
  acceptsTimezone : String → Bool
  getZonedDateParts : Time → String → ZonedDateParts
  localTime : Time → Time
  utc : Time → Time

def Calendar.HostInUTC (calendar : Calendar) : Prop :=
  ∀ time, calendar.localTime time = time ∧ calendar.utc time = time

variable (calendar : Calendar)

def validateTimezone (timezone : String) : Bool :=
  calendar.acceptsTimezone timezone

/-- `TimeClip`; an invalid date is `none`. -/
def timeClip (time : Time) : Option Time :=
  if -maxTime ≤ time ∧ time ≤ maxTime then some time else none

/-- `date.setSeconds(0, 0)`. -/
def startOfMinute (date : Time) : Option Time :=
  let time := calendar.localTime date
  timeClip (calendar.utc (time - time % 60000))

/-- `date.setMinutes(date.getMinutes() + 1)`. -/
def nextMinute (date : Time) : Option Time :=
  timeClip (calendar.utc (calendar.localTime date + 60000))

def matchesCron (date : Time) (parsed : ParsedCron) (timezone : String) :
    Bool :=
  let parts := calendar.getZonedDateParts date timezone
  parsed.minute.contains parts.minute && parsed.hour.contains parts.hour &&
    parsed.dayOfMonth.contains parts.dayOfMonth &&
    parsed.month.contains parts.month &&
    parsed.dayOfWeek.contains parts.dayOfWeek

/-- The search: formatting an invalid date throws. -/
def searchFrom (parsed : ParsedCron) (timezone : String) :
    Nat → Option Time → Except Failure (Option Time)
  | 0, _ => .ok none
  | _ + 1, none => .error (.error "Invalid time value")
  | turns + 1, some cursor =>
      if matchesCron calendar cursor parsed timezone then .ok (some cursor)
      else searchFrom parsed timezone turns (nextMinute calendar cursor)

def searchTurns : Nat := 60 * 24 * 366

def computeNextRunAt (cronExpression timezone : String) (fromDate : Time) :
    Except Failure (Option Time) := do
  let parsed ← parseCronExpression cronExpression
  if !validateTimezone calendar timezone then
    .error (.error "Invalid schedule timezone")
  else
    searchFrom calendar parsed timezone searchTurns
      ((startOfMinute calendar fromDate).bind (nextMinute calendar))

/-- The schedule calculations as the services use them. -/
def utils : CronUtils where
  validateCronExpression := validateCronExpression
  validateTimezone := validateTimezone calendar
  computeNextRunAt := computeNextRunAt calendar

end SyncBridge.Cron
