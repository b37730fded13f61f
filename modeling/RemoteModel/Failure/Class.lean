import RemoteModel.Text.Rune

/-!
Classes of errors. A class has a name and stands below other classes; what is caught, retried or
counted depends on the classes an error stands below.
-/

namespace RemoteModel

inductive OwnError where
  | base
  | invalidConfig
  | unsupportedAuthType
  | unsupportedProtocol
  | unsupportedMethod
  | actionNotFound
  | missingParameter
  | invalidPayload
  | keyLoad
  | transport
  | serviceUnavailable
  | remoteService
  | artifact
  | artifactDownload
  | hashMismatch
  | formatMismatch
  | multipleModelFiles
  | noModelFile
  | noTokenizerFile
  | foundation
  | backend
  deriving DecidableEq, Repr

namespace OwnError

def all : List OwnError :=
  [.base, .invalidConfig, .unsupportedAuthType, .unsupportedProtocol, .unsupportedMethod,
    .actionNotFound, .missingParameter, .invalidPayload, .keyLoad, .transport,
    .serviceUnavailable, .remoteService, .artifact, .artifactDownload, .hashMismatch,
    .formatMismatch, .multipleModelFiles, .noModelFile, .noTokenizerFile, .foundation, .backend]

def name : OwnError → String
  | .base => "MLConnectError"
  | .invalidConfig => "InvalidConfigError"
  | .unsupportedAuthType => "UnsupportedAuthTypeError"
  | .unsupportedProtocol => "UnsupportedProtocolError"
  | .unsupportedMethod => "UnsupportedMethodError"
  | .actionNotFound => "ActionNotFoundError"
  | .missingParameter => "MissingParameterError"
  | .invalidPayload => "InvalidPayloadError"
  | .keyLoad => "KeyLoadError"
  | .transport => "TransportError"
  | .serviceUnavailable => "ServiceUnavailableError"
  | .remoteService => "RemoteServiceError"
  | .artifact => "ArtifactError"
  | .artifactDownload => "ArtifactDownloadError"
  | .hashMismatch => "HashMismatchError"
  | .formatMismatch => "ModelFormatMismatchError"
  | .multipleModelFiles => "MultipleModelFilesError"
  | .noModelFile => "NoModelFileError"
  | .noTokenizerFile => "NoTokenizerFileError"
  | .foundation => "FoundationError"
  | .backend => "UpstreamError"

end OwnError

inductive BasicError where
  | baseException
  | exception
  | arithmeticError
  | assertionError
  | attributeError
  | osError
  | blockingIOError
  | connectionError
  | brokenPipeError
  | childProcessError
  | connectionAbortedError
  | connectionRefusedError
  | connectionResetError
  | eofError
  | fileExistsError
  | fileNotFoundError
  | floatingPointError
  | lookupError
  | indexError
  | interruptedError
  | isADirectoryError
  | keyError
  | keyboardInterrupt
  | memoryError
  | notADirectoryError
  | runtimeError
  | notImplementedError
  | overflowError
  | permissionError
  | processLookupError
  | recursionError
  | stopIteration
  | systemExit
  | timeoutError
  | typeError
  | valueError
  | unicodeError
  | unicodeDecodeError
  | unicodeEncodeError
  | zeroDivisionError
  deriving DecidableEq, Repr

namespace BasicError

def all : List BasicError :=
  [.baseException, .exception, .arithmeticError, .assertionError, .attributeError, .osError,
    .blockingIOError, .connectionError, .brokenPipeError, .childProcessError,
    .connectionAbortedError, .connectionRefusedError, .connectionResetError, .eofError,
    .fileExistsError, .fileNotFoundError, .floatingPointError, .lookupError, .indexError,
    .interruptedError, .isADirectoryError, .keyError, .keyboardInterrupt, .memoryError,
    .notADirectoryError, .runtimeError, .notImplementedError, .overflowError, .permissionError,
    .processLookupError, .recursionError, .stopIteration, .systemExit, .timeoutError, .typeError,
    .valueError, .unicodeError, .unicodeDecodeError, .unicodeEncodeError, .zeroDivisionError]

def name : BasicError → String
  | .baseException => "BaseException"
  | .exception => "Exception"
  | .arithmeticError => "ArithmeticError"
  | .assertionError => "AssertionError"
  | .attributeError => "AttributeError"
  | .osError => "OSError"
  | .blockingIOError => "BlockingIOError"
  | .connectionError => "ConnectionError"
  | .brokenPipeError => "BrokenPipeError"
  | .childProcessError => "ChildProcessError"
  | .connectionAbortedError => "ConnectionAbortedError"
  | .connectionRefusedError => "ConnectionRefusedError"
  | .connectionResetError => "ConnectionResetError"
  | .eofError => "EOFError"
  | .fileExistsError => "FileExistsError"
  | .fileNotFoundError => "FileNotFoundError"
  | .floatingPointError => "FloatingPointError"
  | .lookupError => "LookupError"
  | .indexError => "IndexError"
  | .interruptedError => "InterruptedError"
  | .isADirectoryError => "IsADirectoryError"
  | .keyError => "KeyError"
  | .keyboardInterrupt => "KeyboardInterrupt"
  | .memoryError => "MemoryError"
  | .notADirectoryError => "NotADirectoryError"
  | .runtimeError => "RuntimeError"
  | .notImplementedError => "NotImplementedError"
  | .overflowError => "OverflowError"
  | .permissionError => "PermissionError"
  | .processLookupError => "ProcessLookupError"
  | .recursionError => "RecursionError"
  | .stopIteration => "StopIteration"
  | .systemExit => "SystemExit"
  | .timeoutError => "TimeoutError"
  | .typeError => "TypeError"
  | .valueError => "ValueError"
  | .unicodeError => "UnicodeError"
  | .unicodeDecodeError => "UnicodeDecodeError"
  | .unicodeEncodeError => "UnicodeEncodeError"
  | .zeroDivisionError => "ZeroDivisionError"

end BasicError

inductive HttpError where
  | request
  | status
  | connection
  | proxy
  | tls
  | timeout
  | connectTimeout
  | readTimeout
  | urlRequired
  | tooManyRedirects
  | missingSchema
  | invalidSchema
  | invalidUrl
  | invalidHeader
  | invalidProxyUrl
  | chunkedEncoding
  | contentDecoding
  | streamConsumed
  | retry
  | unrewindableBody
  deriving DecidableEq, Repr

namespace HttpError

def all : List HttpError :=
  [.request, .status, .connection, .proxy, .tls, .timeout, .connectTimeout, .readTimeout,
    .urlRequired, .tooManyRedirects, .missingSchema, .invalidSchema, .invalidUrl, .invalidHeader,
    .invalidProxyUrl, .chunkedEncoding, .contentDecoding, .streamConsumed, .retry,
    .unrewindableBody]

def name : HttpError → String
  | .request => "RequestException"
  | .status => "HTTPError"
  | .connection => "ConnectionError"
  | .proxy => "ProxyError"
  | .tls => "SSLError"
  | .timeout => "Timeout"
  | .connectTimeout => "ConnectTimeout"
  | .readTimeout => "ReadTimeout"
  | .urlRequired => "URLRequired"
  | .tooManyRedirects => "TooManyRedirects"
  | .missingSchema => "MissingSchema"
  | .invalidSchema => "InvalidSchema"
  | .invalidUrl => "InvalidURL"
  | .invalidHeader => "InvalidHeader"
  | .invalidProxyUrl => "InvalidProxyURL"
  | .chunkedEncoding => "ChunkedEncodingError"
  | .contentDecoding => "ContentDecodingError"
  | .streamConsumed => "StreamConsumedError"
  | .retry => "RetryError"
  | .unrewindableBody => "UnrewindableBodyError"

end HttpError

inductive WireError where
  | base
  | pool
  | proxy
  | tls
  | decode
  | protocol
  | timeout
  | readTimeout
  | connectTimeout
  deriving DecidableEq, Repr

namespace WireError

def all : List WireError :=
  [.base, .pool, .proxy, .tls, .decode, .protocol, .timeout, .readTimeout, .connectTimeout]

def name : WireError → String
  | .base => "HTTPError"
  | .pool => "PoolError"
  | .proxy => "ProxyError"
  | .tls => "SSLError"
  | .decode => "DecodeError"
  | .protocol => "ProtocolError"
  | .timeout => "TimeoutError"
  | .readTimeout => "ReadTimeoutError"
  | .connectTimeout => "ConnectTimeoutError"

end WireError

inductive CloudError where
  | client
  | service
  | request
  | connectTimeout
  | missingKeyPassphrase
  | invalidKey
  deriving DecidableEq, Repr

namespace CloudError

def all : List CloudError :=
  [.client, .service, .request, .connectTimeout, .missingKeyPassphrase, .invalidKey]

def name : CloudError → String
  | .client => "ClientError"
  | .service => "ServiceError"
  | .request => "RequestException"
  | .connectTimeout => "ConnectTimeout"
  | .missingKeyPassphrase => "MissingPrivateKeyPassphrase"
  | .invalidKey => "InvalidPrivateKey"

end CloudError

inductive ErrorClass where
  | own (e : OwnError)
  | basic (e : BasicError)
  | http (e : HttpError)
  | wire (e : WireError)
  | cloud (e : CloudError)
  | document
  | archive
  | sameFile
  | settings
  deriving DecidableEq, Repr

def OwnError.above : OwnError → List ErrorClass
  | .base | .foundation => [.basic .exception]
  | .invalidConfig | .unsupportedMethod | .missingParameter | .invalidPayload | .artifact =>
      [.own .base, .basic .valueError]
  | .unsupportedAuthType | .unsupportedProtocol => [.own .invalidConfig]
  | .actionNotFound => [.own .base, .basic .lookupError]
  | .keyLoad | .remoteService => [.own .base]
  | .transport => [.own .base, .own .backend]
  | .serviceUnavailable => [.own .transport]
  | .artifactDownload | .hashMismatch | .formatMismatch | .multipleModelFiles
  | .noModelFile | .noTokenizerFile => [.own .artifact]
  | .backend => [.own .foundation]

def BasicError.above : BasicError → List ErrorClass
  | .baseException => []
  | .exception | .keyboardInterrupt | .systemExit => [.basic .baseException]
  | .arithmeticError | .assertionError | .attributeError | .osError | .eofError
  | .lookupError | .memoryError | .runtimeError | .stopIteration | .typeError | .valueError =>
      [.basic .exception]
  | .blockingIOError | .connectionError | .childProcessError | .fileExistsError
  | .fileNotFoundError | .interruptedError | .isADirectoryError | .notADirectoryError
  | .permissionError | .processLookupError | .timeoutError => [.basic .osError]
  | .brokenPipeError | .connectionAbortedError | .connectionRefusedError
  | .connectionResetError => [.basic .connectionError]
  | .floatingPointError | .overflowError | .zeroDivisionError => [.basic .arithmeticError]
  | .indexError | .keyError => [.basic .lookupError]
  | .notImplementedError | .recursionError => [.basic .runtimeError]
  | .unicodeError => [.basic .valueError]
  | .unicodeDecodeError | .unicodeEncodeError => [.basic .unicodeError]

def HttpError.above : HttpError → List ErrorClass
  | .request => [.basic .osError]
  | .status | .connection | .timeout | .urlRequired | .tooManyRedirects | .chunkedEncoding
  | .retry | .unrewindableBody => [.http .request]
  | .proxy | .tls => [.http .connection]
  | .connectTimeout => [.http .connection, .http .timeout]
  | .readTimeout => [.http .timeout]
  | .missingSchema | .invalidSchema | .invalidUrl | .invalidHeader =>
      [.http .request, .basic .valueError]
  | .invalidProxyUrl => [.http .invalidUrl]
  | .contentDecoding => [.http .request, .wire .base]
  | .streamConsumed => [.http .request, .basic .typeError]

def WireError.above : WireError → List ErrorClass
  | .base => [.basic .exception]
  | .pool | .proxy | .tls | .decode | .protocol | .timeout => [.wire .base]
  | .readTimeout | .connectTimeout => [.wire .timeout]

def CloudError.above : CloudError → List ErrorClass
  | .client | .service => [.basic .exception]
  | .request | .connectTimeout | .missingKeyPassphrase | .invalidKey => [.cloud .client]

namespace ErrorClass

def all : List ErrorClass :=
  OwnError.all.map .own ++ BasicError.all.map .basic ++ HttpError.all.map .http
    ++ WireError.all.map .wire ++ CloudError.all.map .cloud
    ++ [.document, .archive, .sameFile, .settings]

def name : ErrorClass → String
  | .own e => e.name
  | .basic e => e.name
  | .http e => e.name
  | .wire e => e.name
  | .cloud e => e.name
  | .document => "JSONDecodeError"
  | .archive => "BadZipFile"
  | .sameFile => "SameFileError"
  | .settings => "ValidationError"

/-- The classes right above a class. -/
def above : ErrorClass → List ErrorClass
  | .own e => e.above
  | .basic e => e.above
  | .http e => e.above
  | .wire e => e.above
  | .cloud e => e.above
  | .document => [.basic .valueError]
  | .archive => [.basic .exception]
  | .sameFile => [.basic .osError]
  | .settings => [.basic .valueError]

/-- Whether a class is another one or stands below it within some steps. -/
def within : Nat → ErrorClass → ErrorClass → Bool
  | 0, c, d => c = d
  | n + 1, c, d => c = d || c.above.any fun b => within n b d

/-- Whether a class is another one or stands below it; no class stands more than seven steps
below another. -/
def isA (c d : ErrorClass) : Bool := within 7 c d

/-- All classes a class stands below, within some steps. -/
def upTo : Nat → ErrorClass → List ErrorClass
  | 0, _ => []
  | n + 1, c => c.above.flatMap fun b => b :: upTo n b

def ancestors (c : ErrorClass) : List ErrorClass := (upTo 7 c).eraseDups

end ErrorClass

end RemoteModel
