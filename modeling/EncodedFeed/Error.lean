/-!
# Errors

What can go wrong between a source, an encoder and an output, with the message of each error, the
hint shown with it, and the chain of errors it wraps.
-/

namespace EncodedFeed

/-- Why an output refused an image. -/
inductive SinkError
  /-- It takes no more images. -/
  | closed
  /-- It could not pass the image on. -/
  | sendFailed (reason : String)
deriving DecidableEq, Repr

/-- Text of a refusal. -/
def SinkError.message : SinkError → String
  | closed => "sink closed"
  | sendFailed reason => "send failed: " ++ reason

/-- An error of the library. -/
inductive Error
  /-- An encoder was used before it was set up. -/
  | uninitialized (detail : String)
  /-- Settings or arguments make no sense. -/
  | invalidParameter (detail : String)
  /-- An encoded frame without octets. -/
  | emptyPayload
  /-- The output refused an image. -/
  | sink (cause : SinkError)
  /-- No codec has this name. -/
  | unknownCodec (name : String)
  /-- No encoder can serve a format. -/
  | encoderUnavailable (detail : String)
  /-- The configuration cannot be used. -/
  | config (detail : String)
  /-- The operating system refused. -/
  | os (detail : String)
  /-- An error met while doing something. -/
  | withContext (context : String) (cause : Error)
deriving DecidableEq, Repr

namespace Error

/-- Text of an error. -/
def message : Error → String
  | uninitialized detail => "Encoder not initialized: " ++ detail
  | invalidParameter detail => "Invalid parameter: " ++ detail
  | emptyPayload => "Encoded frame payload is empty"
  | sink cause => "Output sink error: " ++ cause.message
  | unknownCodec name => "Unknown codec: " ++ name
  | encoderUnavailable detail => "Encoder unavailable: " ++ detail
  | config detail => "Configuration error: " ++ detail
  | os detail => "I/O error: " ++ detail
  | withContext context cause => context ++ ": " ++ cause.message

/-- Messages of the errors an error wraps, outermost first. -/
def causes : Error → List String
  | sink cause => [cause.message]
  | os detail => [detail]
  | withContext _ cause => cause.message :: cause.causes
  | _ => []

/-- Whether the host should tear the encoder down and set it up again. -/
def needsReinit : Error → Bool
  | uninitialized _ | invalidParameter _ => true
  | withContext _ cause => cause.needsReinit
  | _ => false

/-- Advice for the user, where there is any. -/
def hint : Error → Option String
  | uninitialized _ => some "Call init() and register_output_sink() before pulling frames"
  | invalidParameter _ => some "Codec settings need a non-zero width and height"
  | emptyPayload => some "Encoded frames must carry at least one byte"
  | unknownCodec _ => some "Supported codecs: vp8, vp9, av1, h264, h265"
  | config _ => some "Check ~/.config/passthru/config.toml or run 'passthru config init'"
  | withContext _ cause => cause.hint
  | _ => none

end Error

end EncodedFeed
