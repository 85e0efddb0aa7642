import Teleop.Cloud.Json
import Teleop.Lib.Bytes

/-!
# Requests and responses
-/

namespace Teleop.Cloud

open Teleop.Lib

/-- HTTP method; unknown verbs are kept as text. -/
inductive Method where
  | get
  | post
  | put
  | delete
  | other (text : String)
  deriving DecidableEq, Repr

/-- A parsed request.  Header names are in lower case, the query is split from the path. -/
structure Request where
  method : Method
  path : String
  query : String
  headers : List (String × String)
  body : List UInt8
  deriving DecidableEq

structure Response where
  status : UInt16
  headers : List (String × String)
  body : List UInt8
  deriving DecidableEq

namespace Response

def withBody (code : UInt16) (contentType : String) (body : List UInt8) : Response where
  status := code
  headers := [("content-type", contentType), ("content-length", toString body.length)]
  body := body

def json {F : Type} [JsonNumber F] (code : UInt16) (body : Json F) : Response :=
  withBody code "application/json" (utf8 body.write)

def html (code : UInt16) (body : String) : Response :=
  withBody code "text/html; charset=utf-8" (utf8 body)

/-- A plain-text error. -/
def error (code : UInt16) (message : String) : Response :=
  withBody code "text/plain; charset=utf-8" (utf8 message)

end Response

end Teleop.Cloud
