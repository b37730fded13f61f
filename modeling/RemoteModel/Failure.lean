import RemoteModel.Artifact.Format
import RemoteModel.Auth.Field
import RemoteModel.Connector.Protocol
import RemoteModel.Failure.Class
import RemoteModel.Json.Parser
import RemoteModel.Json.Shown
import RemoteModel.Text.Quoted
import RemoteModel.Text.Utf8

/-!
Everything that can go wrong, as causes. The class of an error, its wording and what it was raised
from are functions of the cause.
-/

namespace RemoteModel

inductive ActionPart where
  | type
  | method
  | url
  deriving DecidableEq, Repr

inductive SigningField where
  | accessKey
  | secretKey
  | serviceName
  | region
  deriving DecidableEq, Repr

inductive FileFault where
  | notFound
  | alreadyThere
  | notFolder
  | isFolder
  | nameTooLong
  | linkLoop
  deriving DecidableEq, Repr

inductive HeaderPart where
  | name
  | value
  deriving DecidableEq, Repr

inductive CountPart where
  | width
  | places
  deriving DecidableEq, Repr

inductive AddressFault where
  | brackets
  | notNumeric (host : Text)
  | fourInBrackets
  | futureForm
  | disguised (authority : Text)
  deriving DecidableEq, Repr

inductive Failure where
  -- told by a collaborator
  | reported (kind : ErrorClass) (message : Text)
  | reportedCall (kind : OwnError) (message : Text) (connector endpoint : Json)
  | reportedHoles (message : Text) (placeholders : List Text)
  | cloudRefused (status code message requestId : Json)
  -- values
  | wrongType
  | noAttribute
  | missingKey (name : Text)
  | attributeTaken (name : Text)
  | notJson (error : Json.ReadError)
  | notInteger (given : Text)
  | notNumber (given : Text)
  | integerTooLong (digits : Nat)
  | integerOfNan
  | integerOfInfinity
  | notWritable (rune : Rune) (first last : Nat)
  | notLatin (rune : Rune) (first last : Nat)
  | notUtf8 (fault : Utf8.Fault)
  | unknownEncoding (name : Text)
  | badAddress (fault : AddressFault)
  | portNotNumber (given : Text)
  | portTooLarge
  | settingsInvalid
  | unknownLevel (name : Text)
  | bodyClosed
  | noCharacter
  | wholeTooLarge
  | countTooBig (part : CountPart)
  | countOverflow (part : CountPart)
  | directiveIncomplete
  | directiveKeyIncomplete
  | directiveUnknown (kind : Rune) (index : Nat)
  -- auth
  | credentialMissing
  | authTypeUnknown
  | authFieldMissing (field : AuthField)
  | authFieldRequired (field : AuthField)
  | authFieldForbidden (field : AuthField)
  | authTypeUnsupported (given : Text)
  -- connectors
  | protocolMissing
  | protocolUnknown
  | actionTypeUnknown (given : Text)
  | actionIncomplete (part : ActionPart)
  | connectorUnnamed
  | documentNotJson (error : Json.ReadError)
  | signingFieldMissing (field : SigningField)
  | actionNotFound (action : ActionType) (connector : Json)
  | unfilled (item : Text) (placeholders : List Text)
  | payloadNotJson (error : Json.ReadError)
  | noAuthDescriptor (connector : Json)
  | notKeySigned (connector : Json)
  -- calls
  | protocolUnsupported (given : Text)
  | protocolMismatch (executor : Text) (expected : List Protocol) (found : Text)
  | methodUnsupported (given : Text)
  | payloadMissing
  | headerUnsafe (part : HeaderPart) (text : Text)
  | schemeMissing (url : Text)
  | hostMissing (url : Text)
  | urlUnreadable (url : Text)
  | hostLabelInvalid
  | schemeUnserved (url : Text)
  | callFailed (connector : Json) (endpoint : Text) (cause : Failure)
  | readFailed (connector : Json) (endpoint : Json) (cause : Failure)
  | circuitOpen (kind : ErrorClass) (service : Text)
  | breakerMissing (owner : Text)
  | remote (status : Json) (body : Text) (requestId : Option Text)
  | statusRefused (status : Int) (reason : Json) (url : Text)
  -- signing keys
  | signerFailed (signer : Text) (cause : Failure)
  | keyUnreadable (cause : Failure)
  | keyRejected (cause : Failure)
  -- object storage
  | storageExhausted (attempts : Int) (cause : Failure)
  | storageFailed (cause : Failure)
  -- files
  | file (fault : FileFault) (path : Text)
  | linkRemoval
  | sameFile (source target : Text)
  | nullInPath
  -- artifacts
  | notArchive
  | archiveTooNew (version : Nat)
  | formatUnknown (given : Text)
  | chunkSizeNotPositive (size : Int)
  | modelUrlMissing
  | schemeUnsupported (given : Text)
  | storageAddressInvalid (url : Text)
  | modelNotStored (connector : Json) (cause : Failure)
  | modelNotCopied (source : Text) (cause : Failure)
  | downloadFailed (url : Text) (cause : Failure)
  | modelNotArchive (model : Text) (cause : Failure)
  | formatMismatch (declared : Option ModelFormat) (found : ModelFormat)
  | multipleModelFiles
  | noModelFile
  | noTokenizerFile
  | contentChanged
  | metaListUnconfigured
  | metaListNotJson (error : Json.ReadError)
  | metaListNotList
  | repositoryUnconfigured
  | modelFormatMissing
  | configNotJson (error : Json.ReadError)
  | configNotFound
  deriving DecidableEq, Repr

namespace FileFault

def number : FileFault → Nat
  | .notFound => 2
  | .alreadyThere => 17
  | .notFolder => 20
  | .isFolder => 21
  | .nameTooLong => 36
  | .linkLoop => 40

def text : FileFault → Text
  | .notFound => "No such file or directory"
  | .alreadyThere => "File exists"
  | .notFolder => "Not a directory"
  | .isFolder => "Is a directory"
  | .nameTooLong => "File name too long"
  | .linkLoop => "Too many levels of symbolic links"

def kind : FileFault → BasicError
  | .notFound => .fileNotFoundError
  | .alreadyThere => .fileExistsError
  | .notFolder => .notADirectoryError
  | .isFolder => .isADirectoryError
  | .nameTooLong | .linkLoop => .osError

end FileFault

namespace ActionPart

def name : ActionPart → Text
  | .type => "action_type"
  | .method => "method"
  | .url => "url"

end ActionPart

namespace SigningField

def label : SigningField → Text
  | .accessKey => "access key"
  | .secretKey => "secret key"
  | .serviceName => "service name"
  | .region => "region"

end SigningField

namespace CountPart

def limit : CountPart → Nat
  | .width => 0x7FFFFFFFFFFFFFFF
  | .places => 0x7FFFFFFF

end CountPart

namespace HeaderPart

def label : HeaderPart → Text
  | .name => "name"
  | .value => "value"

end HeaderPart

def OwnError.status : OwnError → Option Int
  | .foundation | .backend => none
  | .base | .keyLoad | .remoteService => some 500
  | .transport | .artifactDownload => some 502
  | .serviceUnavailable => some 503
  | _ => some 400

namespace Failure

/-- A document that is no JSON is a fault of its own class; a number beyond the limit is a fault of
the value. -/
def readKind : Json.ReadError → ErrorClass
  | .malformed .. => .document
  | .tooLong _ => .basic .valueError

def kind : Failure → ErrorClass
  | .reported kind _ => kind
  | .reportedCall kind .. => .own kind
  | .reportedHoles .. | .unfilled .. => .own .missingParameter
  | .cloudRefused .. => .cloud .service
  | .wrongType => .basic .typeError
  | .noAttribute => .basic .attributeError
  | .missingKey _ | .attributeTaken _ => .basic .keyError
  | .notJson e => readKind e
  | .notInteger _ | .notNumber _ | .integerTooLong _ | .integerOfNan | .badAddress _
  | .portNotNumber _ | .portTooLarge
  | .unknownLevel _ | .bodyClosed | .directiveIncomplete | .directiveKeyIncomplete
  | .directiveUnknown .. | .countTooBig _ | .nullInPath | .formatUnknown _ | .chunkSizeNotPositive _ =>
      .basic .valueError
  | .integerOfInfinity | .noCharacter | .wholeTooLarge | .countOverflow _ =>
      .basic .overflowError
  | .notWritable .. | .notLatin .. => .basic .unicodeEncodeError
  | .notUtf8 _ => .basic .unicodeDecodeError
  | .unknownEncoding _ => .basic .lookupError
  | .settingsInvalid => .settings
  | .authTypeUnknown | .authTypeUnsupported _ => .own .unsupportedAuthType
  | .protocolMissing | .protocolUnknown | .protocolUnsupported _ => .own .unsupportedProtocol
  | .credentialMissing | .authFieldMissing _ | .authFieldRequired _ | .authFieldForbidden _
  | .actionTypeUnknown _ | .actionIncomplete _ | .connectorUnnamed | .documentNotJson _
  | .signingFieldMissing _ | .noAuthDescriptor _ | .notKeySigned _ | .protocolMismatch ..
  | .modelUrlMissing | .schemeUnsupported _ | .storageAddressInvalid _ | .metaListUnconfigured
  | .repositoryUnconfigured | .modelFormatMissing => .own .invalidConfig
  | .actionNotFound .. => .own .actionNotFound
  | .payloadNotJson _ | .payloadMissing => .own .invalidPayload
  | .methodUnsupported _ => .own .unsupportedMethod
  | .headerUnsafe .. => .http .invalidHeader
  | .schemeMissing _ => .http .missingSchema
  | .hostMissing _ | .urlUnreadable _ | .hostLabelInvalid => .http .invalidUrl
  | .schemeUnserved _ => .http .invalidSchema
  | .callFailed .. | .readFailed .. => .own .transport
  | .circuitOpen kind _ => kind
  | .breakerMissing _ => .basic .runtimeError
  | .remote .. => .own .remoteService
  | .statusRefused .. => .http .status
  | .signerFailed .. | .keyUnreadable _ | .keyRejected _ => .own .keyLoad
  | .storageExhausted .. | .storageFailed _ | .modelNotStored .. | .modelNotCopied ..
  | .downloadFailed .. | .metaListNotJson _ | .metaListNotList | .configNotJson _ =>
      .own .artifactDownload
  | .file fault _ => .basic fault.kind
  | .linkRemoval => .basic .osError
  | .sameFile .. => .sameFile
  | .notArchive => .archive
  | .archiveTooNew _ => .basic .notImplementedError
  | .modelNotArchive .. | .configNotFound => .own .artifact
  | .formatMismatch .. => .own .formatMismatch
  | .multipleModelFiles => .own .multipleModelFiles
  | .noModelFile => .own .noModelFile
  | .noTokenizerFile => .own .noTokenizerFile
  | .contentChanged => .own .hashMismatch

def isA (f : Failure) (c : ErrorClass) : Bool := f.kind.isA c

/-- The text that stands for what the object storage service said. -/
def cloudText : Text := "<ServiceError>"

def message : Failure → Text
  | .reported kind message => if kind = .basic .keyError then message.quoted else message
  | .reportedCall _ message .. => message
  | .reportedHoles message _ => message
  | .cloudRefused .. => cloudText
  | .wrongType => "unsupported type"
  | .noAttribute => "no such attribute"
  | .missingKey name => name.quoted
  | .attributeTaken name =>
      ("Attempt to overwrite " ++ name.quoted ++ " in LogRecord" : Text).quoted
  | .notJson e => e.message
  | .notInteger given =>
      "invalid literal for int() with base 10: " ++ given.quoted.take 200
  | .notNumber given => "could not convert string to float: " ++ given.quoted
  | .integerTooLong digits => Json.digitLimitText digits
  | .integerOfNan => "cannot convert float NaN to integer"
  | .integerOfInfinity => "cannot convert float infinity to integer"
  | .notWritable rune first last =>
      if last = first + 1 then
        "'utf-8' codec can't encode character '" ++ rune.escaped
          ++ "' in position " ++ Text.ofNat first ++ ": surrogates not allowed"
      else
        "'utf-8' codec can't encode characters in position " ++ Text.ofNat first ++ "-"
          ++ Text.ofNat (last - 1) ++ ": surrogates not allowed"
  | .notLatin rune first last =>
      if last = first + 1 then
        "'latin-1' codec can't encode character '" ++ rune.escaped
          ++ "' in position " ++ Text.ofNat first ++ ": ordinal not in range(256)"
      else
        "'latin-1' codec can't encode characters in position " ++ Text.ofNat first ++ "-"
          ++ Text.ofNat (last - 1) ++ ": ordinal not in range(256)"
  | .notUtf8 fault => fault.message
  | .unknownEncoding name => "unknown encoding: " ++ name
  | .badAddress .brackets => "Invalid IPv6 URL"
  | .badAddress (.notNumeric host) =>
      host.quoted ++ " does not appear to be an IPv4 or IPv6 address"
  | .badAddress .fourInBrackets => "An IPv4 address cannot be in brackets"
  | .badAddress .futureForm => "IPvFuture address is invalid"
  | .badAddress (.disguised authority) =>
      "netloc '" ++ authority ++ "' contains invalid characters under NFKC normalization"
  | .portNotNumber given => "Port could not be cast to integer value as " ++ given.quoted
  | .portTooLarge => "Port out of range 0-65535"
  | .settingsInvalid => "invalid settings"
  | .unknownLevel name => "Unknown level: " ++ name.quoted
  | .bodyClosed => "I/O operation on closed file."
  | .noCharacter => "%c arg not in range(0x110000)"
  | .wholeTooLarge => "int too large to convert to float"
  | .countTooBig .width => "width too big"
  | .countTooBig .places => "precision too big"
  | .countOverflow .width => "Python int too large to convert to C ssize_t"
  | .countOverflow .places => "Python int too large to convert to C int"
  | .directiveIncomplete => "incomplete format"
  | .directiveKeyIncomplete => "incomplete format key"
  | .directiveUnknown kind index =>
      let shown : Rune := if 0x1F ≤ kind.code ∧ kind.code ≤ 0x7E then kind else .scalar '?'
      "unsupported format character '" ++ [shown] ++ "' (0x" ++ Text.hex 0 kind.code
        ++ ") at index " ++ Text.ofNat index
  | .credentialMissing => "Missing credential"
  | .authTypeUnknown => "Wrong OCI client auth type"
  | .authFieldMissing field => "Missing " ++ field.label
  | .authFieldRequired field => field.name ++ " is required for USER_PRINCIPAL auth"
  | .authFieldForbidden field => field.name ++ " is only allowed for USER_PRINCIPAL auth"
  | .authTypeUnsupported given => "OCI client auth type is not supported " ++ given
  | .protocolMissing =>
      "Connector protocol is null. Please use one of ["
        ++ Text.join ", " (Protocol.all.map Protocol.name) ++ "]"
  | .protocolUnknown =>
      "Unsupported connector protocol. Please use one of ["
        ++ Text.join ", " (Protocol.all.map Protocol.name) ++ "]"
  | .actionTypeUnknown given => "Wrong action type: " ++ given
  | .actionIncomplete part => "Connector action has no " ++ part.name
  | .connectorUnnamed => "Connector name is required"
  | .documentNotJson e => "Connector document is not valid JSON: " ++ e.message
  | .signingFieldMissing field => "Missing " ++ field.label
  | .actionNotFound action connector =>
      "No " ++ action.name ++ " action found in connector " ++ connector.shown
  | .unfilled item placeholders =>
      "Some parameter placeholder not filled in " ++ item ++ ": " ++ Text.join ", " placeholders
  | .payloadNotJson e => "Invalid payload: " ++ e.message
  | .noAuthDescriptor connector =>
      "Connector " ++ connector.shown ++ " has no OCI auth configuration"
  | .notKeySigned connector =>
      "Connector " ++ connector.shown ++ " does not use " ++ Protocol.awsSigV4.name
  | .protocolUnsupported given => "Unsupported connector protocol: " ++ given
  | .protocolMismatch executor expected found =>
      executor ++ " requires a connector with protocol ["
        ++ Text.join ", " (expected.map Protocol.name) ++ "], got '" ++ found ++ "'"
  | .methodUnsupported given => "unsupported http method " ++ given
  | .payloadMissing => "Content length is 0. Aborting request to remote model"
  | .headerUnsafe part text =>
      "Invalid leading whitespace, reserved character(s), or return character(s) in header "
        ++ part.label ++ ": " ++ text.quoted
  | .schemeMissing url =>
      "Invalid URL " ++ url.quoted ++ ": No scheme supplied. Perhaps you meant https://" ++ url
        ++ "?"
  | .hostMissing url => "Invalid URL " ++ url.quoted ++ ": No host supplied"
  | .urlUnreadable url => "Failed to parse: " ++ url
  | .hostLabelInvalid => "URL has an invalid label."
  | .schemeUnserved url => "No connection adapters were found for " ++ url.quoted
  | .callFailed connector endpoint cause =>
      "Failed to call remote service of connector " ++ connector.shown ++ " at " ++ endpoint
        ++ ": " ++ cause.message
  | .readFailed connector endpoint cause =>
      "Failed to read response of connector " ++ connector.shown ++ " from " ++ endpoint.shown
        ++ ": " ++ cause.message
  | .circuitOpen _ service =>
      service ++ " is currently unavailable. "
        ++ "The circuit breaker is open due to repeated failures. "
        ++ "Calls will be attempted again after the recovery timeout."
  | .breakerMissing owner =>
      owner ++ " has no circuit breaker. "
        ++ "Ensure the class inherits from CircuitBreakerMixin and "
        ++ "calls _init_circuit_breaker() in __attrs_post_init__."
  | .remote _ body requestId =>
      "Error from remote service: " ++ body ++
        match requestId with
        | some (r :: id) => " opc request id: " ++ (r :: id)
        | _ => []
  | .statusRefused status reason url =>
      Text.ofInt status ++ (if status < 500 then " Client Error: " else " Server Error: ")
        ++ reason.shown ++ " for url: " ++ url
  | .signerFailed signer cause =>
      "Failed to initialize " ++ signer ++ " signer: " ++ cause.message
  | .keyUnreadable _ => "Failed to read private key"
  | .keyRejected cause => "Failed to read private key: " ++ cause.message
  | .storageExhausted attempts cause =>
      "Failed to download file from object storage after " ++ Text.ofInt attempts
        ++ " attempts: " ++ cause.message
  | .storageFailed cause =>
      match cause with
      | .cloudRefused _ _ message requestId =>
          "Failed to download file from object storage: " ++ message.shown
            ++ " opc request id: " ++ requestId.shown
      | cause => "Failed to download file from object storage: " ++ cause.message
  | .file fault path =>
      "[Errno " ++ Text.ofNat fault.number ++ "] " ++ fault.text ++ ": " ++ path.quoted
  | .linkRemoval => "Cannot call rmtree on a symbolic link"
  | .sameFile source target =>
      "PosixPath(" ++ source.quoted ++ ") and PosixPath(" ++ target.quoted
        ++ ") are the same file"
  | .nullInPath => "embedded null byte"
  | .notArchive => "File is not a zip file"
  | .archiveTooNew version =>
      "zip file version " ++ Text.ofNat (version / 10) ++ "." ++ Text.ofNat (version % 10)
  | .formatUnknown given => "Wrong model format: " ++ given
  | .chunkSizeNotPositive size => "Chunk size must be positive, got " ++ Text.ofInt size
  | .modelUrlMissing => "Model url is required"
  | .schemeUnsupported given => "Unsupported model url scheme: " ++ given
  | .storageAddressInvalid url => "Invalid OCI object storage URI " ++ url
  | .modelNotStored connector cause =>
      "Failed to store model downloaded by connector " ++ connector.shown ++ ": "
        ++ cause.message
  | .modelNotCopied source cause =>
      "Failed to copy model file " ++ source ++ ": " ++ cause.message
  | .downloadFailed url cause => "Failed to download " ++ url ++ ": " ++ cause.message
  | .modelNotArchive model _ => "Model file of " ++ model ++ " is not a zip archive"
  | .formatMismatch declared found =>
      "Model format is " ++ declared.elim (Text.ofString "None") ModelFormat.name ++ ", but find "
        ++ found.extension ++ " file"
  | .multipleModelFiles => "Find multiple model files, but expected only one"
  | .noModelFile => "Can't find model file"
  | .noTokenizerFile => "No tokenizer file"
  | .contentChanged => "model content changed"
  | .metaListUnconfigured => "Prebuilt model meta list endpoint is not configured"
  | .metaListNotJson e => "Prebuilt model meta list is not valid JSON: " ++ e.message
  | .metaListNotList => "Prebuilt model meta list is not a list"
  | .repositoryUnconfigured => "Prebuilt model repository endpoint is not configured"
  | .modelFormatMissing => "Model format is required for prebuilt models"
  | .configNotJson e => "Prebuilt model config is not valid JSON: " ++ e.message
  | .configNotFound => "model config not found"

def cause? : Failure → Option Failure
  | .documentNotJson e | .payloadNotJson e | .metaListNotJson e | .configNotJson e =>
      some (.notJson e)
  | .callFailed _ _ cause | .readFailed _ _ cause | .signerFailed _ cause | .keyUnreadable cause
  | .keyRejected cause | .storageExhausted _ cause | .storageFailed cause
  | .modelNotStored _ cause | .modelNotCopied _ cause | .downloadFailed _ cause
  | .modelNotArchive _ cause => some cause
  | _ => none

def connector : Failure → Json
  | .reportedCall _ _ connector _ | .callFailed connector .. | .readFailed connector .. => connector
  | _ => .null

def endpoint : Failure → Json
  | .reportedCall _ _ _ endpoint | .readFailed _ endpoint _ => endpoint
  | .callFailed _ endpoint _ => .str endpoint
  | _ => .null

def placeholders : Failure → List Text
  | .unfilled _ placeholders | .reportedHoles _ placeholders => placeholders
  | _ => []

/-- The HTTP status that stands for an error, if it is one of this library. -/
def status : Failure → Option Json
  | .remote status .. => some status
  | f =>
      match f.kind with
      | .own e => e.status.map Json.int
      | _ => none

end Failure

/-- The bytes of text in UTF-8; a lone surrogate has none. -/
def Text.encode (t : Text) : Except Failure Bytes :=
  match Utf8.encode? t with
  | some bytes => .ok bytes
  | none =>
      match Utf8.firstUnwritable Rune.isScalar t with
      | some (rune, first, last) => .error (.notWritable rune first last)
      | none => .ok []

end RemoteModel
