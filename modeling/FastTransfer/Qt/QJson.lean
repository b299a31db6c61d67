/- FastTransfer/Qt/QJson
   source: the QJsonDocument and QJsonObject operations the control messages use
   digest: JSON objects, and the document printer and parser as a parameter with their law. -/

import FastTransfer.Qt.QString

set_option autoImplicit false
set_option relaxedAutoImplicit false

namespace FastTransfer

/-- A value as the sources observe it. A number outside `qint64` is known by its bits only,
and arrays and objects are never looked into. -/
inductive QJsonValue
  | undefined | null
  | bool (b : Bool)
  | integer (n : Int64)
  | double (bits : UInt64)
  | string (s : QString)
  | composite
  deriving DecidableEq

namespace QJsonValue

def toString : QJsonValue → QString
  | string s => s
  | _ => []

def toStringOr (value : QJsonValue) (default : QString) : QString :=
  match value with
  | string s => s
  | _ => default

def toBool : QJsonValue → Bool
  | bool b => b
  | _ => false

/-- Booleans and integers survive printing and parsing; a string with unpaired surrogates
need not. -/
def IsScalar : QJsonValue → Prop
  | bool _ | integer _ => True
  | _ => False

end QJsonValue

/-- Keys in the order `QJsonObject` keeps them. -/
abbrev QJsonObject := List (QString × QJsonValue)

def QJsonObject.value (obj : QJsonObject) (key : QString) : QJsonValue :=
  (obj.lookup key).getD .undefined

/-- The JSON library. `fromJson` is `none` unless the document is an object; `toInt` takes the
default as its second argument, and `toULongLong` is `toVariant().toULongLong()`. -/
structure QJson where
  toJson : QJsonObject → QByteArray
  fromJson : QByteArray → Option QJsonObject
  toInt : QJsonValue → UInt32 → UInt32
  toULongLong : QJsonValue → UInt64
  toULongLong_integer : ∀ n : Int64, toULongLong (.integer n) = n.toUInt64
  fromJson_toJson : ∀ obj : QJsonObject, ∃ read, fromJson (toJson obj) = some read ∧
    ∀ key, (obj.value key).IsScalar → read.value key = obj.value key

end FastTransfer
