import FeedQuery.Text.Quoted

/-!
# Rejections

What a request can say wrongly, and how it is told so.
-/

namespace FeedQuery

/-- What is wrong with the value of a filter. -/
inductive FilterFault where
  | notAnId (raw : String)
  | notADate (raw : String)
  | notAVisibility (raw : String)
  | notANumber (raw : String)
  | empty
deriving DecidableEq, Repr

/-- The sentence for a fault. -/
def FilterFault.message : FilterFault → String
  | .notAnId raw => Text.quoted raw ++ " is not a valid id."
  | .notADate raw => Text.quoted raw ++ " is neither an RFC 3339 date nor a unix timestamp."
  | .notAVisibility raw => Text.quoted raw ++ " is not a visibility value."
  | .notANumber raw => Text.quoted raw ++ " is not a number."
  | .empty => "Value must not be empty."

/-- What is wrong with a cursor. -/
inductive CursorFault where
  | notAnId (raw : String)
  | notANumber (raw : String)
  | notFinite
deriving DecidableEq, Repr

/-- The sentence for a fault. -/
def CursorFault.message : CursorFault → String
  | .notAnId raw => Text.quoted raw ++ " is not an id."
  | .notANumber raw => "nextValue " ++ Text.quoted raw ++ " is not a number."
  | .notFinite => "nextValue must be finite."

/-- Why a request is refused before anything is read. -/
inductive Rejection where
  | filter (field : String) (fault : FilterFault)
  /-- The direction is none of those that exist. -/
  | sort (field : String) (direction : String)
  | cursor (fault : CursorFault)
deriving DecidableEq, Repr

namespace Rejection

/-- The message about a filter. -/
def filterMessage (field reason : String) : String := "Invalid filter " ++ field ++ ": " ++ reason

/-- The message about a sort. -/
def sortMessage (field reason : String) : String := "Invalid sort " ++ field ++ ": " ++ reason

/-- The message about a cursor. -/
def cursorMessage (reason : String) : String := "Invalid cursor: " ++ reason

/-- The message of a rejection. -/
def message : Rejection → String
  | .filter field fault => filterMessage field fault.message
  | .sort field direction =>
    sortMessage field (Text.quoted direction ++ " is not a sort direction, expected 1 or -1.")
  | .cursor fault => cursorMessage fault.message

end Rejection

end FeedQuery
