/-!
What can go wrong between a program and a memcached server, and the text it is reported with.
-/

set_option autoImplicit false

namespace CacheCheck.Memcached

inductive Fault
  | badUrl (reason : String)
  | keyTooLong
  | client (reason : String)
  /-- A response that does not begin with the response mark. -/
  | badMark (byte : Nat)
  | badResponse (line : String)
  | server (reason : String)
  /-- A response with a status other than success. -/
  | status (code : Nat)
  | invalidCommand
  /-- No connection became ready; the reason is that of the last attempt. -/
  | notReady (reason : String)
  /-- A failure of the operating system. -/
  | system (description : String)
  deriving DecidableEq, Repr, Inhabited

namespace Fault

/-- The wording of a status. -/
def statusText (code : Nat) : String :=
  if code = 0x01 then "Key was not found in the server."
  else if code = 0x02 then "Key already exists in the server."
  else if code = 0x03 then "Value was too large."
  else if code = 0x04 then "Invalid arguments provided."
  else if code = 0x20 then "Authentication required."
  else "Unknown error occurred with code: " ++ toString code ++ "."

def message : Fault → String
  | .badUrl reason => reason
  | .keyTooLong => "The provided key was too long."
  | .client reason => reason
  | .badMark byte =>
    "Expected 0x81 as magic in response header, but found: " ++
      String.ofList (Nat.toDigits 16 byte)
  | .badResponse line => "Unexpected: " ++ line ++ " in response"
  | .server reason => reason
  | .status code => statusText code
  | .invalidCommand => "Invalid command sent to the server."
  | .notReady reason => "timed out waiting for connection: " ++ reason
  | .system description => description

/-- A fault of this kind is reported without a further cause. -/
def chain (fault : Fault) : List String :=
  [fault.message]

end Fault

end CacheCheck.Memcached
