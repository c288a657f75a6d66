import StepLocator.Json.Printer

/-!
Frames: a message as JSON text behind a header that gives its length in octets. The text is ASCII,
so its characters and its octets are equally many.
-/
namespace StepLocator
namespace Frame

def headerEnd : Text := "\r\n\r\n"

def ofText (payload : Text) : Text :=
  "Content-Length: " ++ natText (Utf8.encode payload).length ++ headerEnd ++ payload

def ofMessage (message : Value) : Text := ofText (Json.print message)

def encode (message : Value) : Bytes := Utf8.encode (ofMessage message)

end Frame
end StepLocator
