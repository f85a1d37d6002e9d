namespace TypedScript.Prelude

def path : String := "std/prelude.lang"

def text : String :=
  String.intercalate "\n" [
    "// Standard library surface visible to every program.",
    "//",
    "// `array` and `map` are declared over `object`. Calls through them are",
    "// checked per call against the container's element, key and value types.",
    "",
    "delegate num Comparator(object left, object right);",
    "",
    "delegate object ArrayAt(object items, num index);",
    "delegate void ArrayPush(object items, object value);",
    "delegate object ArrayPop(object items);",
    "delegate num ArrayLength(object items);",
    "delegate void ArrayInsert(object items, num index, object value);",
    "delegate object ArrayRemove(object items, num index);",
    "delegate num ArrayIndexOf(object items, object value);",
    "delegate bool ArrayContains(object items, object value);",
    "delegate void ArraySort(object items, Comparator comparator);",
    "delegate object ArraySlice(object items, num start, num end);",
    "delegate void ArrayClear(object items);",
    "",
    "struct ArrayLib \x7b",
    "    ArrayAt at;",
    "    ArrayPush push;",
    "    ArrayPop pop;",
    "    ArrayLength length;",
    "    ArrayInsert insert;",
    "    ArrayRemove remove;",
    "    ArrayIndexOf indexOf;",
    "    ArrayContains contains;",
    "    ArraySort sort;",
    "    ArraySlice slice;",
    "    ArrayClear clear;",
    "\x7d",
    "",
    "ArrayLib array;",
    "",
    "delegate object MapGet(object entries, object key);",
    "delegate void MapSet(object entries, object key, object value);",
    "delegate bool MapHas(object entries, object key);",
    "delegate void MapRemove(object entries, object key);",
    "delegate object MapKeys(object entries);",
    "delegate object MapValues(object entries);",
    "delegate num MapSize(object entries);",
    "delegate void MapClear(object entries);",
    "",
    "struct MapLib \x7b",
    "    MapGet get;",
    "    MapSet set;",
    "    MapHas has;",
    "    MapRemove remove;",
    "    MapKeys keys;",
    "    MapValues values;",
    "    MapSize size;",
    "    MapClear clear;",
    "\x7d",
    "",
    "MapLib map;",
    "",
    "delegate num StringLength(string text);",
    "delegate char StringAt(string text, num index);",
    "delegate string StringSubstring(string text, num start, num end);",
    "delegate num StringIndexOf(string text, string part);",
    "delegate string[] StringSplit(string text, string separator);",
    "delegate string StringJoin(string[] parts, string separator);",
    "delegate string StringCase(string text);",
    "delegate string StringFromNum(num value);",
    "delegate num StringToNum(string text);",
    "",
    "struct StringLib \x7b",
    "    StringLength length;",
    "    StringAt at;",
    "    StringSubstring substring;",
    "    StringIndexOf indexOf;",
    "    StringSplit split;",
    "    StringJoin join;",
    "    StringCase upper;",
    "    StringCase lower;",
    "    StringFromNum fromNum;",
    "    StringToNum toNum;",
    "\x7d",
    "",
    "StringLib str;",
    "",
    "delegate num MathUnary(num value);",
    "delegate num MathBinary(num left, num right);",
    "delegate num MathRandom();",
    "",
    "struct MathLib \x7b",
    "    num PI = 3.141592653589793;",
    "    num E = 2.718281828459045;",
    "    MathUnary abs;",
    "    MathUnary floor;",
    "    MathUnary ceil;",
    "    MathUnary round;",
    "    MathUnary sqrt;",
    "    MathUnary sin;",
    "    MathUnary cos;",
    "    MathUnary tan;",
    "    MathBinary atan2;",
    "    MathBinary min;",
    "    MathBinary max;",
    "    MathBinary pow;",
    "    MathRandom random;",
    "\x7d",
    "",
    "MathLib math;",
    "",
    "struct vec2 \x7b",
    "    num x = 0;",
    "    num y = 0;",
    "\x7d",
    "",
    "struct vec3 \x7b",
    "    num x = 0;",
    "    num y = 0;",
    "    num z = 0;",
    "\x7d",
    ""]

def vectors : List String := ["vec2", "vec3"]

end TypedScript.Prelude
