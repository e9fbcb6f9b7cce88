import Mathlib.Logic.Function.Basic
import OrmBenchmark.Lib.Prog
import OrmBenchmark.Ref.SQLiteCommon

/-!
# The JNI helpers that throw and log

`JNIHelp.c`, over the part of a `JNIEnv` it uses: the exception that is
pending, the local references, and the `char` arrays that `GetStringUTFChars`
lent out. The virtual machine answers every call that can fail, by the number
of the call.

Most JNI functions may not be called while an exception is pending, a reference
may not be used or deleted once it was deleted, and nothing may be written past
the end of a buffer. All of that is undefined behaviour, which is where a
program dies here. The methods that are looked up are there, so `GetMethodID`
does not fail. A buffer is kept as the text in it, up to the terminating zero.
-/

namespace OrmBenchmark.Ref

open OrmBenchmark.Lib

/-- What a local reference refers to. -/
inductive LocalRef
  | clazz (name : String)
  | throwable (e : Throwable)
  | string (value : List UInt16)
  | object (className : String)

/-- What a method that returns a string did. -/
inductive StringAnswer
  | value (text : List UInt16)
  | null
  | throws (e : Throwable)

/-- The virtual machine: `none` is a call that succeeds, and what is thrown
instead is pending afterwards. -/
structure Jvm where
  FindClass : Nat → String → Option Throwable
  NewObject : Nat → Option Throwable
  ThrowNew : Nat → Option Throwable
  GetStringUTFChars : Nat → Option Throwable
  /-- `Class.getName()` -/
  getName : Nat → StringAnswer
  /-- `Throwable.getMessage()`, which a subclass may override -/
  getMessage : Nat → StringAnswer
  /-- `Throwable.printStackTrace(PrintWriter)` -/
  printStackTrace : Nat → Option Throwable
  /-- `StringWriter.toString()` -/
  toString : Nat → StringAnswer
  kindOf : String → ThrowableKind

/-- A virtual machine on which only these two methods may fail. -/
def Jvm.answering (getMessage toString : StringAnswer) : Jvm where
  FindClass _ _ := none
  NewObject _ := none
  ThrowNew _ := none
  GetStringUTFChars _ := none
  getName _ := .value [0x45]
  getMessage _ := getMessage
  printStackTrace _ := none
  toString _ := toString
  kindOf _ := .runtimeException

/-- A line of the log. -/
inductive LogLine
  | discardingPending (summary : List UInt8) (className : String)
  | unableToFind (className : String)
  | failedThrowing (className : String) (msg : Option String)
  | write (priority : Int32) (tag : String) (text : List UInt8)

structure JniState where
  pending : Option Throwable
  /-- calls that could have failed so far -/
  calls : Nat
  /-- the number of the next reference or array -/
  next : Nat
  locals : Nat → Option LocalRef
  chars : Nat → Option (List UInt8)
  log : List LogLine

/-- A native function is entered with nothing but what is pending. -/
def JniState.start (pending : Option Throwable) : JniState where
  pending := pending
  calls := 0
  next := 0
  locals _ := none
  chars _ := none
  log := []

/-- A C function has no exception of its own to leave with. -/
abbrev JniProg := Prog JniState Empty

/-! ## The environment -/

namespace JNIEnv

/-- The functions that may not be called while an exception is pending begin
with this. -/
def checkPending : JniProg Unit := do
  let s ← Prog.getState
  match s.pending with
  | none => pure ()
  | some _ => Prog.die

def nextJniCall : JniProg Nat := fun s => (.ok s.calls, { s with calls := s.calls + 1 })

def setPending (pending : Option Throwable) : JniProg Unit :=
  Prog.modifyState fun s => { s with pending := pending }

def newLocalRef (ref : LocalRef) : JniProg Nat := fun s =>
  (.ok s.next,
    { s with next := s.next + 1, locals := Function.update s.locals s.next (some ref) })

def deref (ref : Nat) : JniProg LocalRef := do
  let s ← Prog.getState
  match s.locals ref with
  | none => Prog.die
  | some object => pure object

/-- A new reference, or `NULL` with an exception pending. -/
def newOrNull (failure : Option Throwable) (ref : LocalRef) : JniProg (Option Nat) :=
  match failure with
  | none => do
      let r ← newLocalRef ref
      pure (some r)
  | some e => do
      setPending (some e)
      pure none

def writeLog (line : LogLine) : JniProg Unit :=
  Prog.modifyState fun s => { s with log := s.log ++ [line] }

def ExceptionCheck : JniProg Bool := do
  let s ← Prog.getState
  pure s.pending.isSome

def ExceptionClear : JniProg Unit := setPending none

def ExceptionOccurred : JniProg (Option Nat) := do
  let s ← Prog.getState
  match s.pending with
  | none => pure none
  | some e => do
      let r ← newLocalRef (.throwable e)
      pure (some r)

def DeleteLocalRef (ref : Nat) : JniProg Unit := do
  let _ ← deref ref
  Prog.modifyState fun s => { s with locals := Function.update s.locals ref none }

def GetObjectClass (ref : Nat) : JniProg Nat := do
  checkPending
  let object ← deref ref
  newLocalRef (.clazz (match object with
    | .clazz _ => "java/lang/Class"
    | .throwable e => e.className
    | .string _ => "java/lang/String"
    | .object className => className))

def GetMethodID (clazz : Nat) : JniProg Unit := do
  checkPending
  let _ ← deref clazz
  pure ()

def Throw (ref : Nat) : JniProg Unit := do
  checkPending
  let object ← deref ref
  match object with
  | .throwable e => setPending (some e)
  | _ => Prog.die

def GetStringLength (ref : Nat) : JniProg Nat := do
  checkPending
  let object ← deref ref
  match object with
  | .string value => pure value.length
  | _ => Prog.die

/-- The bytes of one UTF-16 unit in modified UTF-8, which has no zero byte and
encodes the two halves of a pair one by one. -/
def modifiedUtf8Unit (c : UInt16) : List UInt8 :=
  if c ≠ 0 ∧ c < 0x80 then [c.toUInt8]
  else if c < 0x800 then [(c >>> 6 ||| 0xc0).toUInt8, (c &&& 0x3f ||| 0x80).toUInt8]
  else [(c >>> 12 ||| 0xe0).toUInt8, (c >>> 6 &&& 0x3f ||| 0x80).toUInt8,
    (c &&& 0x3f ||| 0x80).toUInt8]

def modifiedUtf8 (text : List UInt16) : List UInt8 := text.flatMap modifiedUtf8Unit

/-- `GetStringUTFRegion(str, 0, len, buf)` into a buffer of `bufLen` bytes: `len`
counts units of the string, and the buffer gets their bytes. -/
def GetStringUTFRegion (ref len bufLen : Nat) : JniProg (List UInt8) := do
  checkPending
  let object ← deref ref
  match object with
  | .string value =>
      let bytes := modifiedUtf8 (value.take len)
      if bytes.length ≤ bufLen then pure bytes else Prog.die
  | _ => Prog.die

def ReleaseStringUTFChars (chars : Nat) : JniProg Unit := do
  let s ← Prog.getState
  match s.chars chars with
  | none => Prog.die
  | some _ => Prog.modifyState fun s => { s with chars := Function.update s.chars chars none }

variable (jvm : Jvm)

def FindClass (name : String) : JniProg (Option Nat) := do
  checkPending
  let n ← nextJniCall
  newOrNull (jvm.FindClass n name) (.clazz name)

def NewObject (clazz : Nat) (className : String) : JniProg (Option Nat) := do
  checkPending
  let _ ← deref clazz
  let n ← nextJniCall
  newOrNull (jvm.NewObject n) (.object className)

/-- `CallObjectMethod` for a method that returns a string. -/
def CallObjectMethod (ref : Nat) (method : Nat → StringAnswer) : JniProg (Option Nat) := do
  checkPending
  let _ ← deref ref
  let n ← nextJniCall
  match method n with
  | .value text => newOrNull none (.string text)
  | .null => pure none
  | .throws e => newOrNull (some e) (.string [])

def CallVoidMethod (ref : Nat) (method : Nat → Option Throwable) : JniProg Unit := do
  checkPending
  let _ ← deref ref
  let n ← nextJniCall
  setPending (method n)

/-- The array, with the text in it. -/
def GetStringUTFChars (ref : Nat) : JniProg (Option (Nat × List UInt8)) := do
  checkPending
  let object ← deref ref
  match object with
  | .string value => do
      let n ← nextJniCall
      match jvm.GetStringUTFChars n with
      | none => do
          let s ← Prog.getState
          Prog.modifyState fun s =>
            { s with
              next := s.next + 1
              chars := Function.update s.chars s.next (some (modifiedUtf8 value)) }
          pure (some (s.next, modifiedUtf8 value))
      | some e => do
          setPending (some e)
          pure none
  | _ => Prog.die

/-- Whether it answers `JNI_OK`. -/
def ThrowNew (clazz : Nat) (className : String) (msg : Option String) : JniProg Bool := do
  checkPending
  let _ ← deref clazz
  let n ← nextJniCall
  match jvm.ThrowNew n with
  | none => do
      setPending (some ⟨jvm.kindOf className, className, msg⟩)
      pure true
  | some e => do
      setPending (some e)
      pure false

end JNIEnv

/-! ## `JNIHelp.c` -/

namespace JNIHelp

open JNIEnv

variable (jvm : Jvm)

def ascii (text : String) : List UInt8 := text.toList.map fun c => c.toNat.toUInt8

/-- `snprintf(buf, bufLen, ...)`, and `strncpy` with the zero after it. -/
def fit (text : List UInt8) (bufLen : Nat) : List UInt8 := text.take (bufLen - 1)

/-- `if (ref != NULL) { ...; DeleteLocalRef(ref); }`, which succeeds if its body
does. -/
def withLocalRef {α : Type} (ref : Option Nat) (body : Nat → JniProg (Option α)) :
    JniProg (Option α) :=
  match ref with
  | none => pure none
  | some ref => do
      let result ← body ref
      DeleteLocalRef ref
      pure result

/-- The text after the name of the class. A message that could not be asked for
counts as none, with what was thrown left pending. -/
def summarize (exception exceptionClazz : Nat) (classNameChars : List UInt8) (bufLen : Nat) :
    JniProg (List UInt8) := do
  GetMethodID exceptionClazz
  let messageStr ← CallObjectMethod exception jvm.getMessage
  match messageStr with
  | some messageStr => do
      let messageChars ← GetStringUTFChars jvm messageStr
      let buf ← match messageChars with
        | some messageChars => do
            let buf := fit (classNameChars ++ ascii ": " ++ messageChars.2) bufLen
            ReleaseStringUTFChars messageChars.1
            pure buf
        | none => do
            ExceptionClear
            pure (fit (classNameChars ++ ascii ": <error getting message>") bufLen)
      DeleteLocalRef messageStr
      pure buf
  | none => pure (fit classNameChars bufLen)

/-- The name of the class and what follows it, or `none` where the name could
not be had. -/
def nameAndMessage (exception exceptionClazz bufLen : Nat) :
    JniProg (Option (List UInt8)) := do
  let classNameStr ← CallObjectMethod exceptionClazz jvm.getName
  withLocalRef classNameStr fun classNameStr => do
    let classNameChars ← GetStringUTFChars jvm classNameStr
    match classNameChars with
    | none => pure none
    | some classNameChars => do
        let buf ← summarize jvm exception exceptionClazz classNameChars.2 bufLen
        ReleaseStringUTFChars classNameChars.1
        pure (some buf)

def getExceptionSummary (exception bufLen : Nat) : JniProg (List UInt8) := do
  let exceptionClazz ← GetObjectClass exception
  let classClazz ← GetObjectClass exceptionClazz
  GetMethodID classClazz
  let buf ← nameAndMessage jvm exception exceptionClazz bufLen
  DeleteLocalRef classClazz
  DeleteLocalRef exceptionClazz
  match buf with
  | some buf => pure buf
  | none => do
      ExceptionClear
      pure (fit (ascii "<error getting class name>") bufLen)

/-- What the two writers hold after `exception.printStackTrace(printWriterObj)`. -/
def readStackTrace (exception stringWriterObj bufLen : Nat) : JniProg (Option (List UInt8)) := do
  let exceptionClazz ← GetObjectClass exception
  GetMethodID exceptionClazz
  CallVoidMethod exception jvm.printStackTrace
  let buf ←
    if ← ExceptionCheck then pure none
    else do
      let messageStr ← CallObjectMethod stringWriterObj jvm.toString
      withLocalRef messageStr fun messageStr => do
        let length ← GetStringLength messageStr
        let messageStrLength := if bufLen ≤ length then bufLen - 1 else length
        let bytes ← GetStringUTFRegion messageStr messageStrLength bufLen
        pure (some (bytes.take messageStrLength))
  DeleteLocalRef exceptionClazz
  pure buf

/-- The trace, if nothing fails on the way to it. -/
def writeStackTrace (exception bufLen : Nat) : JniProg (Option (List UInt8)) := do
  let stringWriterClazz ← FindClass jvm "java/io/StringWriter"
  withLocalRef stringWriterClazz fun stringWriterClazz => do
    GetMethodID stringWriterClazz
    GetMethodID stringWriterClazz
    let printWriterClazz ← FindClass jvm "java/io/PrintWriter"
    withLocalRef printWriterClazz fun printWriterClazz => do
      GetMethodID printWriterClazz
      let stringWriterObj ← NewObject jvm stringWriterClazz "java/io/StringWriter"
      withLocalRef stringWriterObj fun stringWriterObj => do
        let printWriterObj ← NewObject jvm printWriterClazz "java/io/PrintWriter"
        withLocalRef printWriterObj fun _ =>
          readStackTrace jvm exception stringWriterObj bufLen

def printStackTrace (exception bufLen : Nat) : JniProg (List UInt8) := do
  let buf ← writeStackTrace jvm exception bufLen
  match buf with
  | some buf => pure buf
  | none => do
      ExceptionClear
      getExceptionSummary jvm exception bufLen

/-- The pending exception is logged and cleared. -/
def discardPending (className : String) : JniProg Unit := do
  if ← ExceptionCheck then
    let exception ← ExceptionOccurred
    ExceptionClear
    match exception with
    | none => pure ()
    | some exception => do
        let buf ← getExceptionSummary jvm exception 256
        writeLog (.discardingPending buf className)
        DeleteLocalRef exception
  else
    pure ()

def jniThrowException (className : String) (msg : Option String) : JniProg Int32 := do
  discardPending jvm className
  let exceptionClass ← FindClass jvm className
  match exceptionClass with
  | none => do
      writeLog (.unableToFind className)
      pure (-1)
  | some exceptionClass => do
      let thrown ← ThrowNew jvm exceptionClass className msg
      let result ←
        if thrown then pure 0
        else do
          writeLog (.failedThrowing className msg)
          pure (-1)
      DeleteLocalRef exceptionClass
      pure result

/-- The `NULL` argument stands for the pending exception. -/
def jniLogException (priority : Int32) (tag : String) (exception : Option Nat) :
    JniProg Unit := do
  match exception with
  | some exception => do
      let buffer ← printStackTrace jvm exception 1024
      writeLog (.write priority tag buffer)
  | none => do
      let exception ← ExceptionOccurred
      match exception with
      | none => pure ()
      | some exception => do
          ExceptionClear
          let buffer ← printStackTrace jvm exception 1024
          writeLog (.write priority tag buffer)
          Throw exception
          DeleteLocalRef exception

end JNIHelp

end OrmBenchmark.Ref
