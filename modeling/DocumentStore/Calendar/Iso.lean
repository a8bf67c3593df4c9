import DocumentStore.Calendar.Pattern

/-! The spellings of dates and times that count as ISO 8601: the strict internet profile, and
three forms with an offset, four without and the bare date, all of them read loosely. -/
namespace DocumentStore.Calendar

def looseDate : List Item := [.loose .year, .literal '-', .loose .month, .literal '-', .loose .day]

def looseMinutes : List Item := [.loose .hour, .literal ':', .loose .minute]

def looseSeconds : List Item := looseMinutes ++ [.literal ':', .loose .second, .fraction]

/-- Date and time with every digit in place, and a zone. -/
def strictPattern : List Item :=
  [.exact .year, .literal '-', .exact .month, .literal '-', .exact .day, .oneOf ['t', 'T', ' '],
    .exact .hour, .literal ':', .exact .minute, .literal ':', .exact .second, .fraction, .zone]

def isoPatterns : List (List Item) :=
  [strictPattern,
    looseDate ++ .literal 'T' :: looseSeconds ++ [.offset],
    looseDate ++ .blanks :: looseSeconds ++ [.offset],
    looseDate ++ .literal 'T' :: looseMinutes ++ [.offset],
    looseDate ++ .literal 'T' :: looseSeconds,
    looseDate ++ .blanks :: looseSeconds,
    looseDate ++ .literal 'T' :: looseMinutes,
    looseDate ++ .blanks :: looseMinutes,
    looseDate]

/-- Whether a text, blanks around it aside, is an ISO 8601 date or date and time. -/
def isIso (s : String) : Bool :=
  let cs := Text.trimChars s.toList
  !cs.isEmpty && isoPatterns.any fun items => (readMoment items cs).isSome

def dateOf? (s : String) : Option Date :=
  (readMoment looseDate (Text.trimChars s.toList)).map (·.date)

end DocumentStore.Calendar
