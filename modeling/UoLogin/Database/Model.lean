import Mathlib.Data.Int.Notation
import UoLogin.Packets
import UoLogin.Splice

set_option autoImplicit false

/-!
# The user database

The classes `BerkeleyDB` and `Database`. What `stat()`, `getenv()`, the copy of the file and Berkeley
DB answer to one call is an input of the model (`ReloadAnswers`), and so is a failure of a lookup. The
`log` is a history of what happened to the handles and to the calls; no function reads it.

* `berkeleyDB`, `assign`: a handle is opened, replaced and closed;
* `maybeAutoReload`, `doAutoReload`, `checkCredentials`: the functions of `Database.cxx` on the event
  loop;
* `Handle.get`, `checkPassword`: what a worker does.
-/

namespace UoLogin

/-- What a database file says: the value of each key. -/
abbrev Contents := List UInt8 → Option (List UInt8)

/-- An open `DB *`, numbered in the order of `db_create()`, and the file behind it. -/
structure Handle where
  id : ℕ
  contents : Contents

/-- The exceptions of `Database.cxx` and `BerkeleyDB.cxx`. -/
inductive DatabaseError where
  | stat
  | notRegularFile
  | noRuntimeDirectory
  | copyRegularFile
  | dbCreate
  | dbOpen
  | dbGet
  deriving DecidableEq, Repr

/-- The fields of `struct stat` that are looked at. -/
structure Stat where
  regular : Bool
  mtime : ℤ
  size : ℤ
  deriving DecidableEq, Repr

/-- The answers to one attempt to load the database. -/
structure ReloadAnswers where
  /-- `stat()`, unless it fails -/
  stat : Option Stat
  runtimeDirectory : Bool
  copyRegularFile : Bool
  dbCreate : Bool
  /-- the file that `db->open()` finds, unless it fails -/
  dbOpen : Option Contents

/-- The entries of the log; calls of `CheckCredentials` are numbered. -/
inductive DatabaseAct where
  | opened (h : Handle)
  | close (handle : ℕ)
  | copyRegularFile (size : ℤ)
  | checkCredentials (call : ℕ) (username password : List UInt8)
  | noDatabase (call : ℕ)
  | get (call : ℕ) (h : Option Handle)
  | verify (call : ℕ) (h : Handle) (value password : List UInt8) (result : Bool)
  | callback (call : ℕ) (username : List UInt8) (result : Bool)
  | delete (call : ℕ)

structure Database where
  path : Option (List UInt8)
  autoReload : Bool
  db : Option Handle := none
  lastMtime : ℤ := 0
  lastReloadError : Option DatabaseError := none
  /-- how often `db_create()` has succeeded -/
  handles : ℕ := 0
  log : List DatabaseAct := []

namespace Database

def emits (d : Database) (acts : List DatabaseAct) : Database := { d with log := d.log ++ acts }

/-! ## Handles -/

/-- The constructor `BerkeleyDB(path)`: `Create()` and `Open()`, which closes the handle when it
fails. -/
def berkeleyDB (d : Database) (ans : ReloadAnswers) : Except DatabaseError Handle × Database :=
  if ans.dbCreate then
    match ans.dbOpen with
    | some contents =>
      (.ok ⟨d.handles, contents⟩,
        { d with handles := d.handles + 1, log := d.log ++ [.opened ⟨d.handles, contents⟩] })
    | none =>
      (.error .dbOpen, { d with handles := d.handles + 1, log := d.log ++ [.close d.handles] })
  else (.error .dbCreate, d)

/-- The destructor of a `BerkeleyDB` that holds this. -/
def closing : Option Handle → List DatabaseAct
  | some h => [.close h.id]
  | none => []

/-- The assignment to `db`: it swaps, and the destructor of the temporary closes the old handle. -/
def assign (d : Database) (db : Option Handle) : Database :=
  { d with db := db, log := d.log ++ closing d.db }

/-- The constructor. -/
def new (path : Option (List UInt8)) (autoReload : Bool) (ans : ReloadAnswers) :
    Except DatabaseError Database :=
  let d : Database := { path := path, autoReload := autoReload }
  if path.isSome && !autoReload then
    match d.berkeleyDB ans with
    | (.ok h, d) => .ok (d.assign (some h))
    | (.error e, _) => .error e
  else .ok d

/-! ## On the event loop -/

/-- `DoAutoReload`. -/
def doAutoReload (d : Database) (ans : ReloadAnswers) (size : ℤ) :
    Except DatabaseError Unit × Database :=
  if ans.runtimeDirectory then
    let d := d.emits [.copyRegularFile size]
    if ans.copyRegularFile then
      match d.berkeleyDB ans with
      | (.ok h, d) => (.ok (), d.assign (some h))
      | (.error e, d) => (.error e, d)
    else (.error .copyRegularFile, d)
  else (.error .noRuntimeDirectory, d)

/-- `MaybeAutoReload`. -/
def maybeAutoReload (d : Database) (ans : ReloadAnswers) : Except DatabaseError Unit × Database :=
  match ans.stat with
  | none => (.error .stat, d)
  | some st =>
    if !st.regular then (.error .notRegularFile, d)
    else if st.mtime = d.lastMtime then
      match d.lastReloadError with
      | some e => (.error e, d)
      | none => (.ok (), d)
    else
      let d := { d with lastMtime := st.mtime }
      let d := d.assign none
      let d := { d with lastReloadError := none }
      match d.doAutoReload ans st.size with
      | (.error e, d) => (.error e, { d with lastReloadError := some e })
      | (.ok (), d) => (.ok (), d)

/-- How `CheckCredentials` ends: by an exception, by a call of the callback because there is no
database, or with a job in the queue. -/
inductive Checked where
  | throws (e : DatabaseError)
  | calledBack
  | queued

/-- `CheckCredentials`, as far as the database is concerned. -/
def checkCredentials (d : Database) (ans : ReloadAnswers) : Checked × Database :=
  match if d.autoReload then d.maybeAutoReload ans else (.ok (), d) with
  | (.error e, d) => (.throws e, d)
  | (.ok (), d) => (if d.db.isNone then .calledBack else .queued, d)

end Database

/-! ## In a worker -/

/-- `crypto_pwhash_STRBYTES`. -/
def pwhashStrbytes : ℕ := 128

/-- What the daemon uses of libcommon and libsodium. -/
structure Verifier where
  util : CharUtil
  /-- `crypto_pwhash_str_verify()` of a NUL-terminated string and a password -/
  verify : List UInt8 → List UInt8 → Bool

/-- `BerkeleyDB::Get` with an open handle: the bytes that it writes to a buffer of `size` bytes. A
value that does not fit is an error, and there may be others (`fails`). -/
def Handle.get (h : Handle) (key : List UInt8) (size : ℕ) (fails : Bool) :
    Except DatabaseError (List UInt8) :=
  if fails then .error .dbGet
  else
    match h.contents key with
    | none => .ok []
    | some value => if value.length ≤ size then .ok value else .error .dbGet

/-- The key of a user. -/
def Verifier.key (v : Verifier) (username : List UInt8) : List UInt8 :=
  username.map v.util.toUpperASCII

/-- `CheckPassword` of call `id`, for a job whose `db` holds this now, with what it leaves in the log.
It is `noexcept`, so that an exception ends the process. -/
def checkPassword (v : Verifier) (id : ℕ) (db : Option Handle) (fails : Bool)
    (username password : List UInt8) : Except Stop Bool × List DatabaseAct :=
  if username.length > 30 then (.ok false, [])
  else
    match db with
    | none => (.error (.abort .getOpen), [.get id none])
    | some h =>
      match h.get (v.key username) pwhashStrbytes fails with
      | .error _ => (.error .throws, [.get id (some h)])
      | .ok value =>
        if value.length = 0 ∨ value.length ≥ pwhashStrbytes then (.ok false, [.get id (some h)])
        else
          (.ok (v.verify value password),
            [.get id (some h), .verify id h value password (v.verify value password)])

end UoLogin
