/-!
# Support code

The C++ that emitted statements rely on, placed in a namespace of its own in front of them.
-/

namespace Tide.Emit.Support

/-- Lines of code, each ended. -/
def code (lines : List String) : String :=
  String.join (lines.map (· ++ "\n"))

/-- Turns a thrown value into text. -/
def toText : String :=
  code
    ["template <typename T>",
     "std::string to_text(const T& value) \x7b",
     "    std::ostringstream out;",
     "    out << std::boolalpha << value;",
     "    return out.str();",
     "\x7d"]

/-- Reads and writes whole files. -/
def files : String :=
  code
    ["inline std::string read_file(const std::string& path) \x7b",
     "    std::ifstream in(path);",
     "    std::stringstream buffer;",
     "    buffer << in.rdbuf();",
     "    return buffer.str();",
     "\x7d",
     "",
     "template <typename T>",
     "void write_file(const std::string& path, const T& value, bool append) \x7b",
     "    std::ofstream out(path, append ? std::ios::app : std::ios::trunc);",
     "    out << std::boolalpha << value;",
     "\x7d"]

/-- A queue without bound, whose receiver waits for a value. -/
def channel : String :=
  code
    ["template <typename T>",
     "class Channel \x7b",
     "public:",
     "    void send(T value) \x7b",
     "        \x7b",
     "            std::lock_guard<std::mutex> lock(mutex_);",
     "            queue_.push_back(std::move(value));",
     "        \x7d",
     "        ready_.notify_one();",
     "    \x7d",
     "",
     "    T recv() \x7b",
     "        std::unique_lock<std::mutex> lock(mutex_);",
     "        ready_.wait(lock, [this] \x7b return !queue_.empty(); \x7d);",
     "        T value = std::move(queue_.front());",
     "        queue_.pop_front();",
     "        return value;",
     "    \x7d",
     "",
     "private:",
     "    std::mutex mutex_;",
     "    std::condition_variable ready_;",
     "    std::deque<T> queue_;",
     "\x7d;"]

/-- Runs scheduled tasks, the highest priority first. -/
def runList : String :=
  code
    ["class RunList \x7b",
     "public:",
     "    void add(double priority, std::function<void()> body) \x7b",
     "        tasks_.push_back(Task\x7bpriority, std::move(body)\x7d);",
     "    \x7d",
     "",
     "    void run() \x7b",
     "        std::stable_sort(tasks_.begin(), tasks_.end(), [](const Task& a, const Task& b) \x7b",
     "            return a.priority > b.priority;",
     "        \x7d);",
     "        for (auto& task : tasks_) \x7b",
     "            task.body();",
     "        \x7d",
     "        tasks_.clear();",
     "    \x7d",
     "",
     "private:",
     "    struct Task \x7b",
     "        double priority;",
     "        std::function<void()> body;",
     "    \x7d;",
     "    std::vector<Task> tasks_;",
     "\x7d;"]

end Tide.Emit.Support
