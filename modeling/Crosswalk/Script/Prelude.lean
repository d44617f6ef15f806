/-!
# What every script brings along

A script is written in Python and needs nothing but the standard modules of that language.  It
brings its own functions for walking along paths, line by line as they stand here.
-/

namespace Crosswalk.Script

/-- The function that splits a path into its pieces. -/
def splitPath : List String :=
  ["def split_path(path):",
   "    parts = []",
   "    current = ''",
   "    depth = 0",
   "    for char in path:",
   "        if char == '[':",
   "            depth += 1",
   "        elif char == ']':",
   "            depth = max(depth - 1, 0)",
   "        elif char == '.' and depth == 0:",
   "            if current:",
   "                parts.append(current)",
   "            current = ''",
   "            continue",
   "        current += char",
   "    if current:",
   "        parts.append(current)",
   "    return parts"]

/-- The function that reads a filter. -/
def parseFilter : List String :=
  ["def parse_predicate(predicate):",
   "    if not predicate.startswith('@') or '=' not in predicate:",
   "        return None, None",
   "    attr_name, _, attr_value = predicate[1:].partition('=')",
   "    return attr_name.strip(), attr_value.strip().strip('\\'\"')"]

/-- The function that finds the value that a path leads to in the input. -/
def getValue : List String :=
  ["def get_value(data, path):",
   "    keys = split_path(path)",
   "    value = data",
   "",
   "    # Children of a namespaced root are looked up in the root's namespace first",
   "    namespace = ''",
   "    if hasattr(data, 'tag') and '\x7d' in data.tag:",
   "        namespace = data.tag.split('\x7d')[0] + '\x7d'",
   "",
   "    for i, key in enumerate(keys):",
   "        if isinstance(value, dict):",
   "            value = value.get(key)",
   "        elif isinstance(value, list):",
   "            if key.isdigit():",
   "                index = int(key)",
   "                value = value[index] if index < len(value) else None",
   "            elif value and isinstance(value[0], dict):",
   "                value = value[0].get(key)",
   "            else:",
   "                return None",
   "        elif hasattr(value, 'attrib'):",
   "            if key.startswith('@_'):",
   "                return value.attrib.get(key[2:])",
   "",
   "            if key.isdigit():",
   "                continue",
   "",
   "            if '[' in key and key.endswith(']'):",
   "                element_name = key[:key.index('[')]",
   "                attr_name, attr_value = parse_predicate(key[key.index('[') + 1:-1])",
   "                if attr_name is not None:",
   "                    candidates = value.findall(namespace + element_name) if namespace else []",
   "                    if not candidates:",
   "                        candidates = value.findall(element_name)",
   "                    for child in candidates:",
   "                        if child.attrib.get(attr_name) == attr_value:",
   "                            value = child",
   "                            break",
   "                    else:",
   "                        return None",
   "                    continue",
   "                key = element_name",
   "",
   "            if i == 0 and hasattr(data, 'tag'):",
   "                root_name = data.tag.split('\x7d')[-1]",
   "                if key == root_name:",
   "                    continue",
   "",
   "            child = value.find(namespace + key) if namespace else value.find(key)",
   "            if child is None and namespace:",
   "                child = value.find(key)",
   "            if child is None:",
   "                return None",
   "            value = child",
   "        else:",
   "            return None",
   "",
   "        if value is None:",
   "            return None",
   "",
   "    if hasattr(value, 'attrib'):",
   "        return value.text",
   "    return value"]

/-- The function that writes a value to the place that a path leads to in the output. -/
def setNestedValue : List String :=
  ["def _empty_container(key):",
   "    return [] if key.isdigit() else \x7b\x7d",
   "",
   "",
   "def set_nested_value(obj, path, value):",
   "    keys = split_path(path)",
   "    current = obj",
   "    for i, key in enumerate(keys):",
   "        if isinstance(current, list):",
   "            if not key.isdigit():",
   "                return",
   "            slot = int(key)",
   "            while len(current) <= slot:",
   "                current.append(\x7b\x7d)",
   "        else:",
   "            slot = key",
   "",
   "        if i == len(keys) - 1:",
   "            current[slot] = value",
   "            return",
   "",
   "        next_key = keys[i + 1]",
   "        existing = current[slot] if isinstance(current, list) else current.get(slot)",
   "        if not isinstance(existing, (dict, list)) or (existing == \x7b\x7d and next_key.isdigit()):",
   "            existing = _empty_container(next_key)",
   "            current[slot] = existing",
   "        current = existing"]

/-- Lines one below the other. -/
def lines (ls : List String) : String :=
  String.intercalate "\n" ls

/-- Parts of a script with two empty lines between them. -/
def sections (parts : List String) : String :=
  String.intercalate "\n\n\n" parts

/-- The functions that every script brings along. -/
def functions : List String :=
  [lines splitPath, lines parseFilter, lines getValue, lines setNestedValue]

end Crosswalk.Script
