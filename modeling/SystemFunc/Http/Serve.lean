import SystemFunc.Http.Request

/-!
# Responses of `libevent/myhttpd.c`

`main_handler` and what it calls, over the answers of the file system; what is added to the `evbuffer` of a response is
the list of its bytes. `my_errno` is `-1` at all error exits, for which a `Stop` has no place: `Http.exit` has the
message only.
-/

namespace SystemFunc.Http

/-- What `stat` answers. -/
structure Stat where
  mode : Nat
  size : Int

/-- What successive calls of `read` return, and whether the last one fails. -/
structure Reads where
  pieces : List (List UInt8)
  failed : Bool

/-- What the calls to the file system answer, for a path; `scandir` has the names in its order. -/
structure FileSystem where
  access : List UInt8 → Bool
  stat : List UInt8 → Option Stat
  openReads : List UInt8 → Option Reads
  scandir : List UInt8 → Option (List (List UInt8))

/-- `PrintError(stderr, -1, headStr, EXIT_FAILURE)`. -/
def exit {β : Type} (headStr : String) : Except Stop β := .error (.exit 0 headStr)

def S_IFDIR : Nat := 0o040000

def addHttpHeader (code : Nat) (desc contentType : List UInt8) : Except Stop (List UInt8) :=
  sprintf 1024 (lit "HTTP/1.1 " ++ lit (toString code) ++ lit " " ++ desc ++ lit "\nContent-Type: " ++ contentType ++
    lit "\n\n")

def handler404 : Except Stop (List UInt8) := do
  let header ← addHttpHeader 404 (lit "Not Found") (lit "text/html")
  return header ++ lit "<html><body><h1>404 Not Found.</h1></body></html>"

def handlerInvalidRequest : Except Stop (List UInt8) := do
  let header ← addHttpHeader 200 (lit "OK") (lit "text/html")
  return header ++ lit "<html><body><h1>invalid request</h1></body></html>"

def getFileType (file : List UInt8) : List UInt8 :=
  match strrchr file 46 with
  | none => lit "text/plain; charset=utf-8"
  | some i =>
    let dot := file.drop i
    if dot = lit ".html" then lit "text/html; charset=utf-8"
    else if dot = lit ".jpg" then lit "image/jpeg"
    else if dot = lit ".png" then lit "image/png"
    else if dot = lit ".mp4" then lit "vedio/mpeg4"
    else if dot = lit ".mp3" then lit "audio/mp3"
    else if dot = lit ".avi" then lit "vedio/avi"
    else if dot = lit ".ico" then lit "image/x-icon"
    else lit "text/plain; charset=utf-8"

def sendRegularFile (fs : FileSystem) (spath : List UInt8) : Except Stop (List UInt8) :=
  match fs.openReads spath with
  | none => exit "open error"
  | some reads => if reads.failed then exit "read error" else .ok reads.pieces.flatten

/-- The target of the link to an entry. -/
def entryHref (path name : List UInt8) : List UInt8 :=
  if path.getLast? = some 47 then path ++ name else path ++ 47 :: name

/-- `file_path`. -/
def entryFilePath (path spath name : List UInt8) : List UInt8 :=
  if path.getLast? = some 47 then spath ++ name else spath ++ 47 :: name

/-- `path_cache` for the entry `..`. -/
def parentHref (path : List UInt8) : List UInt8 :=
  match strrchr path 47 with
  | some (i + 1) => path.take (i + 1)
  | _ => lit "/"

def link (href name : List UInt8) : List UInt8 :=
  lit "<td><a href=\"" ++ href ++ lit "\"><font size=5>" ++ name ++ lit "</font></a></td>"

/-- The line of an entry. -/
def sendEntry (fs : FileSystem) (path spath name : List UInt8) : Except Stop (List UInt8) :=
  if name = lit "." then sprintf 1024 (link path name ++ lit "\n")
  else if name = lit ".." then sprintf 1024 (link (parentHref path) name ++ lit "\n")
  -- `path[len - 1]`
  else if path = [] then .error .undefined
  else do
    let filePath ← sprintf 1024 (entryFilePath path spath name)
    match fs.stat filePath with
    | none => exit "call stat error"
    | some statbuf =>
      sprintf 1024 (link (entryHref path name) name ++ lit "<td><font size=5>" ++ lit (toString statbuf.size) ++
        lit "</font></td>\n")

def sendEntries (fs : FileSystem) (path spath : List UInt8) : List (List UInt8) → Except Stop (List UInt8)
  | [] => .ok []
  | name :: names => do
    let entry ← sendEntry fs path spath name
    let entries ← sendEntries fs path spath names
    return lit "<tr>\n" ++ entry ++ lit "</tr>\n" ++ entries

def sendDir (fs : FileSystem) (path spath : List UInt8) : Except Stop (List UInt8) :=
  match fs.scandir spath with
  | none => exit "scandir error"
  | some names => do
    let head ← sprintf 1024 (lit "<html><body><head><title>" ++ path ++ lit "</title></head>")
    let title ← sprintf 1024 (lit "<h1>now dir : " ++ path ++ lit "</h1><hr><table>")
    let entries ← sendEntries fs path spath names
    return head ++ title ++ entries ++ lit "</table></body></html>"

def mainHandler (fs : FileSystem) (req : HttpRequestT) : Except Stop (List UInt8) :=
  if req.status = 0 then handlerInvalidRequest
  else
    let path := strOf req.path
    let spath := spath path
    if fs.access spath = false then handler404
    else
      match fs.stat spath with
      | none => exit "call stat error"
      | some statbuf => do
        if statbuf.mode &&& S_IFDIR ≠ 0 then
          let tmpbuf ← sendDir fs path spath
          let header ← addHttpHeader 200 (lit "OK") (getFileType (lit ".html"))
          return header ++ tmpbuf
        else
          let tmpbuf ← sendRegularFile fs spath
          let header ← addHttpHeader 200 (lit "OK") (getFileType spath)
          return header ++ tmpbuf

/-- What has arrived since the last call, and what is in `tmp` before this one. -/
structure Call where
  buf : List UInt8
  stale : Block UInt8 TMP_SIZE

/-- `read_cb`: what is queued for the client. -/
def readCb (fs : FileSystem) (call : Call) : Except Stop (List UInt8) := do
  let req ← parseRequest .zero (fill call.stale call.buf)
  mainHandler fs req

/-- What a sequence of calls queues. -/
def queued (fs : FileSystem) : List Call → Except Stop (List UInt8)
  | [] => .ok []
  | call :: calls => do
    let response ← readCb fs call
    let responses ← queued fs calls
    return response ++ responses

end SystemFunc.Http
